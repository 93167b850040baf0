import WasiAuth.Base.Table
import WasiAuth.Base.Text
import WasiAuth.Base.Transition
import WasiAuth.Base.Toggle
import WasiAuth.Base.Epoch
import WasiAuth.Base.Succession
import WasiAuth.Base.Calls
import WasiAuth.Base.Orders
import WasiAuth.Base.Feed
import WasiAuth.Base.Policy
import WasiAuth.Base.Url
import WasiAuth.Base.Recency
import WasiAuth.Base.Window
import WasiAuth.Base.Utf8
import WasiAuth.Base.Headers
import WasiAuth.Base.Json
import WasiAuth.Base.Lockstep
import WasiAuth.Base.Base32
import WasiAuth.Postgres.Schema
import WasiAuth.Postgres.Triggers
import WasiAuth.Postgres.Queries
import WasiAuth.Postgres.Accounts
import WasiAuth.Postgres.Factors
import WasiAuth.Postgres.Organizations
import WasiAuth.Postgres.Management
import WasiAuth.Postgres.Keys
import WasiAuth.Postgres.Outbox
import WasiAuth.Postgres.Commands
import WasiAuth.Postgres.Outcomes
import WasiAuth.Postgres.Writes
import WasiAuth.Postgres.Quiet
import WasiAuth.Postgres.Tenant
import WasiAuth.Postgres.Lasting
import WasiAuth.Postgres.TenantSteps
import WasiAuth.Postgres.Footprints
import WasiAuth.Postgres.SigningKeys
import WasiAuth.Postgres.Bundles
import WasiAuth.Postgres.Replays
import WasiAuth.Postgres.Invitations
import WasiAuth.Postgres.Archived
import WasiAuth.Postgres.Owners
import WasiAuth.Postgres.Disabling
import WasiAuth.Postgres.Restoring
import WasiAuth.Postgres.Intents
import WasiAuth.Postgres.Leases
import WasiAuth.Identity.Context
import WasiAuth.Postgres.Migrations
import WasiAuth.Identity.Session
import WasiAuth.Identity.Tokens
import WasiAuth.Identity.Cached
import WasiAuth.Identity.Signing
import WasiAuth.Identity.KeyRing
import WasiAuth.Identity.KeyStatuses
import WasiAuth.Identity.Values
import WasiAuth.Postgres.Revocation
import WasiAuth.Postgres.Families
import WasiAuth.Postgres.SecondFactors
import WasiAuth.Identity.Idempotency
import WasiAuth.Identity.Workflows
import WasiAuth.Identity.RateLimits
import WasiAuth.Identity.Refresh
import WasiAuth.Identity.Totp
import WasiAuth.Identity.Mfa
import WasiAuth.Identity.CodeUse
import WasiAuth.Identity.Ceremonies
import WasiAuth.Identity.CeremonyFailures
import WasiAuth.Ingress.Boundary
import WasiAuth.Ingress.Credentials
import WasiAuth.Ingress.Origins
import WasiAuth.Ingress.Redirects
import WasiAuth.Identity.PasskeyLogin
import WasiAuth.Ingress.TokenCache
import WasiAuth.Ingress.Caches
import WasiAuth.Ingress.Connect
import WasiAuth.Ingress.Requests
import WasiAuth.Ingress.Freshness
import WasiAuth.Ingress.Envelope
import WasiAuth.Ingress.Decisions
import WasiAuth.Management.AccessModel
import WasiAuth.Management.Dependencies
import WasiAuth.Management.OwnerGrants
import WasiAuth.Management.AuditLog
import WasiAuth.Outbox.Attempts
import WasiAuth.Relationships.Wire
import WasiAuth.Relationships.Worker
import WasiAuth.Relationships.Consistency
import WasiAuth.Relationships.Settled
import WasiAuth.Outbox.Passes
import WasiAuth.Postgres.Selection
import WasiAuth.Identity.SingleUse
import WasiAuth.Identity.Passwords
import WasiAuth.Identity.TokenExpiry
import WasiAuth.Identity.TotpWords
import WasiAuth.Identity.RecoveryCodes
import WasiAuth.Testkit.Evaluator
import WasiAuth.Testkit.Decisions
import WasiAuth.Testkit.Expansion
import WasiAuth.Testkit.Listing
import WasiAuth.Legacy.PolicyPath
import WasiAuth.Legacy.Metadata
import WasiAuth.Legacy.AuthContextHeader
import WasiAuth.Contract.Documents
import WasiAuth.Contract.Wire
import WasiAuth.Spin.Grpc
import WasiAuth.Postgres.Publication
import WasiAuth.Legacy.InFlight
import WasiAuth.Postgres.MigrationRunner
