import Demarcation.QueryResult
import Demarcation.Script.Calls
import Demarcation.Script.Interception
import Demarcation.Script.Registry
import Demarcation.Script.Stores
import Demarcation.Script.Transactions
import Demarcation.Value.Json
import Demarcation.Proofs.Registry
import Demarcation.Proofs.Session
import Demarcation.Proofs.Manager.Opening
import Demarcation.Proofs.Manager.Completing
import Demarcation.Proofs.Session.Alike
import Demarcation.Proofs.Session.Quiet
import Demarcation.Proofs.Nesting
import Demarcation.Proofs.Session.Steady
import Demarcation.Proofs.Client
import Demarcation.Proofs.Marks
import Demarcation.Proofs.Placement
import Demarcation.Proofs.Manager.Mirror
import Demarcation.Proofs.Recording
import Demarcation.Proofs.Atomicity
import Demarcation.Proofs.Store.Primitives
import Demarcation.Proofs.Store.Outcome
import Demarcation.Proofs.Store.Access
import Demarcation.Proofs.Store.Logs
import Demarcation.Proofs.Store.Staging
import Demarcation.Proofs.Store.Leaving
import Demarcation.Proofs.Store.Ledger
import Demarcation.Proofs.Store.Forgiveness
import Demarcation.Proofs.Store.Publication
import Demarcation.Proofs.Store.Expiry
import Demarcation.Proofs.InsideOut
import Demarcation.Proofs.Store.Connections
import Demarcation.Proofs.Store.Savepoints
import Demarcation.Proofs.Store.Hidden
import Demarcation.Proofs.Sidelined
import Demarcation.Proofs.Store.Suspension
import Demarcation.Proofs.References
import Demarcation.Proofs.Doomed
import Demarcation.Proofs.Store.Replay
import Demarcation.Proofs.Wrappers
import Demarcation.Proofs.CallTrees
import Demarcation.Proofs.Composition
import Demarcation.Proofs.Retirement
import Demarcation.Proofs.Whereabouts
import Demarcation.Proofs.Protocol
import Demarcation.Proofs.Contexts
import Demarcation.Proofs.Tracing
import Demarcation.Proofs.Conversation
import Demarcation.Proofs.Store.Rewinding
import Demarcation.Proofs.Exchanges
import Demarcation.Proofs.Capabilities
import Demarcation.Proofs.Attempts
import Demarcation.Proofs.Sharing.Interleavings
import Demarcation.Proofs.Store.Entries
import Demarcation.Proofs.Store.Views
import Demarcation.Proofs.Store.PlainMap
import Demarcation.Proofs.Store.Ownership
import Demarcation.Proofs.Store.FaultHistory
import Demarcation.Proofs.Store.Faults
import Demarcation.Proofs.Registry.Calls
import Demarcation.Proofs.Registry.History
import Demarcation.Proofs.Registry.VoidBindings
import Demarcation.Proofs.Maintenance
import Demarcation.Proofs.Store.Work
import Demarcation.Proofs.Store.ReadOnly
import Demarcation.Proofs.Store.OpenConnections
import Demarcation.Proofs.Cleanups
import Demarcation.Proofs.Referrers
import Demarcation.Proofs.Sharing.Abandonment
import Demarcation.Proofs.Sharing.Custody
import Demarcation.Proofs.Sharing.Releases
import Demarcation.Proofs.Reordering
import Demarcation.Proofs.Definition.Acceptance
import Demarcation.Proofs.Definition.RoundTrip
import Demarcation.Proofs.Attribute.NameMatch
import Demarcation.Proofs.Attribute.Cuts
import Demarcation.Proofs.Translation.Exactness
import Demarcation.Proofs.Translation.Detection
import Demarcation.Proofs.Json.Grammar
import Demarcation.Proofs.Json.Printing
import Demarcation.Proofs.Json.Reading
import Demarcation.Proofs.Json.Settings
import Demarcation.Proofs.Json.RoundTrip
