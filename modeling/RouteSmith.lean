import RouteSmith.Verification.Ledger.Admission
import RouteSmith.Verification.Ledger.Lifecycle
import RouteSmith.Verification.Ledger.Idempotency
import RouteSmith.Verification.Inference.Accounting
import RouteSmith.Verification.Inference.Boundary
import RouteSmith.Verification.Streams.ErrorChunks
import RouteSmith.Verification.Streams.Terminators
import RouteSmith.Verification.Streams.Finalizer
import RouteSmith.Verification.Streams.Grammar
import RouteSmith.Verification.Responses.Obedience
import RouteSmith.Verification.Streams.Splitting
import RouteSmith.Verification.Streams.Agreement
import RouteSmith.Verification.Requests.Acceptance
import RouteSmith.Verification.Governance.Approvals
import RouteSmith.Verification.StateStore
import RouteSmith.Verification.Control.ApiKeys
import RouteSmith.Verification.Auth.Lockout
import RouteSmith.Verification.Network.ProviderUrls
import RouteSmith.Verification.Network.RateLimits
import RouteSmith.Verification.Network.ClientAddress
import RouteSmith.Verification.JavaGateway.Idempotency
import RouteSmith.Verification.Scheduler.Priority
import RouteSmith.Verification.Streams.SizeLimits
import RouteSmith.Verification.Streams.Deltas
import RouteSmith.Verification.Streams.Forwarding
import RouteSmith.Verification.Routing.Selection
import RouteSmith.Verification.Routing.Credentials
import RouteSmith.Verification.Streams.UsageReports
