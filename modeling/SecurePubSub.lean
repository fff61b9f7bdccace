import SecurePubSub.Data.Bytes
import SecurePubSub.Data.SortedMap
import SecurePubSub.Data.Program
import SecurePubSub.Protocol.Types
import SecurePubSub.Data.Cursor
import SecurePubSub.Protocol.Payload
import SecurePubSub.Data.Fallible
import SecurePubSub.Protocol.PayloadRoundTrip
import SecurePubSub.Data.Layout
import SecurePubSub.Protocol.Envelope
import SecurePubSub.Protocol.Crypto
import SecurePubSub.Agent.Core
import SecurePubSub.Authority.Policy
import SecurePubSub.Authority.Replay
import SecurePubSub.Authority.Tables
import SecurePubSub.Authority.Snapshot
import SecurePubSub.Authority.Store
import SecurePubSub.Authority.Process
import SecurePubSub.Authority.Runs
import SecurePubSub.Authority.Invariants
import SecurePubSub.Authority.Reachability
import SecurePubSub.Authority.DeliveryLoop
import SecurePubSub.Authority.FailedRequest
import SecurePubSub.Authority.Publishing
import SecurePubSub.Authority.Isolation
import SecurePubSub.Authority.SnapshotRead
import SecurePubSub.Authority.ReplayWindow
import SecurePubSub.Data.Interleaving
import SecurePubSub.Authority.OneShot
import SecurePubSub.Data.Contract
import SecurePubSub.Authority.CallRules
import SecurePubSub.Data.History
import SecurePubSub.Authority.Authenticity
import SecurePubSub.Protocol.EnvironmentView
import SecurePubSub.Authority.StaticPolicy
import SecurePubSub.Authority.PolicyApprovals
import SecurePubSub.Cad.PolicyConfig
import SecurePubSub.Cad.PolicyEnforcement
import SecurePubSub.Data.CursorLocal
import SecurePubSub.Authority.SnapshotRoundTrip
import SecurePubSub.Authority.SnapshotFormat
import SecurePubSub.Authority.Reopening
import SecurePubSub.Broker.Router
import SecurePubSub.Broker.Stranding
import SecurePubSub.Data.Line
import SecurePubSub.Broker.Sessions
import SecurePubSub.Broker.Lines
import SecurePubSub.Broker.Deliveries
import SecurePubSub.Link.Frames
import SecurePubSub.Link.Pending
import SecurePubSub.Authority.Capacity
import SecurePubSub.Cad.BrokerLink
import SecurePubSub.Cad.DeliveryGroups
import SecurePubSub.Cad.Configurations
import SecurePubSub.Broker.CaLink
import SecurePubSub.BrokerCa.Network
import SecurePubSub.BrokerCa.Histories
import SecurePubSub.BrokerCa.Linked
import SecurePubSub.BrokerCa.Requests
import SecurePubSub.BrokerCa.Sessions
import SecurePubSub.BrokerCa.Deliveries
import SecurePubSub.Protocol.EnvelopeCanonical
import SecurePubSub.Data.CursorCodec
import SecurePubSub.Protocol.PayloadCodec
import SecurePubSub.Protocol.PayloadCanonical
import SecurePubSub.Protocol.SealOpen
import SecurePubSub.Authority.StoreAgreement
import SecurePubSub.Authority.SnapshotCommit
import SecurePubSub.Authority.CrashRuns
import SecurePubSub.Data.Chunks
import SecurePubSub.Data.Comparison
import SecurePubSub.Embassy.Transport
import SecurePubSub.Agent.ReplayCache
import SecurePubSub.Agent.Receiving
import SecurePubSub.Data.Vacancies
import SecurePubSub.Data.Slots
import SecurePubSub.Protocol.Evaluation
import SecurePubSub.UseCases.Builders
import SecurePubSub.UseCases.Applications
import SecurePubSub.Authority.Revocation
import SecurePubSub.Agent.Interchange
import SecurePubSub.Authority.Reconciliation
import SecurePubSub.Authority.Lockout
import SecurePubSub.Link.FrameFormat
import SecurePubSub.Link.Histories
import SecurePubSub.Protocol.KeySeparation
import SecurePubSub.Data.Transactions
import SecurePubSub.Authority.Locking
import SecurePubSub.Authority.LockedCrashes
import SecurePubSub.Data.Journal
import SecurePubSub.Link.Authentication
import SecurePubSub.Data.Fairness
import SecurePubSub.BrokerCa.Progress
import SecurePubSub.Data.Retransmission
import SecurePubSub.BrokerCa.Ordering
import SecurePubSub.BrokerCa.Deployment
import SecurePubSub.Agent.Subscribing
import SecurePubSub.Agent.Publications
import SecurePubSub.Apps.Resending
import SecurePubSub.UseCases.Applications
import SecurePubSub.UseCases.Meetings
