import Fincore.Lib.Transition
import Fincore.Lib.Engine
import Fincore.Lib.RelyGuarantee
import Fincore.Lib.Json
import Fincore.Pkg.Money
import Fincore.Ledger.Domain
import Fincore.Ledger.PostEntry
import Fincore.Ledger.Calls
import Fincore.Ledger.Overdraft
import Fincore.Ledger.Worker
import Fincore.Ledger.Recorded
import Fincore.Account.Domain
import Fincore.Account.Handlers
import Fincore.Payment.Domain
import Fincore.Payment.Handlers
import Fincore.Transfer.Services
import Fincore.Transfer.Effects
import Fincore.Lib.Saga
import Fincore.Transfer.Workflow
import Fincore.Transfer.Moves
import Fincore.Transfer.Outcome
import Fincore.Transfer.Posted
import Fincore.Lib.Retry
import Fincore.Transfer.Retries
import Fincore.Codec
import Fincore.Payment.Relay
import Fincore.Lib.Serial
import Fincore.Transfer.Books
import Fincore.Account.Movements
import Fincore.Payment.Transitions
import Fincore.Transfer.Redelivery
import Fincore.Auth.Store
import Fincore.Auth.Server
import Fincore.Auth.Sessions
import Fincore.Auth.Rotation
import Fincore.Auth.Revocation
import Fincore.Auth.LogoutAll
import Fincore.Auth.OAuth
import Fincore.Auth.Codes
import Fincore.Auth.Exchange
import Fincore.Lib.Autocommit
import Fincore.Lib.HashChain
import Fincore.Audit.Repository
import Fincore.Audit.Honest
import Fincore.Audit.Tamper
import Fincore.Lib.Keyed
import Fincore.Lib.Process
import Fincore.Pkg.Streams
import Fincore.Payment.Calls
import Fincore.Account.Calls
import Fincore.Creating
import Fincore.Payment.Lifecycle
import Fincore.Lib.Apart
import Fincore.Payment.Projection
import Fincore.Account.Snapshots
import Fincore.Outboxes
import Fincore.Transfer.Trail
import Fincore.Pkg.Scripts
import Fincore.Transfer.Failures
import Fincore.Account.Worker
import Fincore.Ledger.Offsets
import Fincore.Ledger.CausalReads
import Fincore.Ledger.Rebuild
import Fincore.Lib.Dispatch
import Fincore.Pkg.OutboxRelay
import Fincore.Lib.DispatchOrder
import Fincore.RelayOrder
import Fincore.Account.Rebuild
import Fincore.Gateway.Headers
import Fincore.Gateway.Chain
import Fincore.Gateway.Identity
import Fincore.Gateway.Limits
import Fincore.Identity.WebAuthn
import Fincore.Auth.Limiter
import Fincore.Auth.Service
import Fincore.Auth.Accounts
import Fincore.Auth.Secrets
import Fincore.Auth.Specs
import Fincore.Auth.Ownership
import Fincore.Auth.Limiting
import Fincore.Auth.Attempts
import Fincore.Identity.Challenges
import Fincore.Identity.Counters
import Fincore.Audit.Verdicts
import Fincore.Auth.ConsentHistory
import Fincore.Lib.Faults
import Fincore.Auth.Refreshing
import Fincore.Payment.Initiating
import Fincore.Ledger.Retries
import Fincore.Auth.Lifetime
import Fincore.Gateway.Buckets
import Fincore.Auth.Cleanup
import Fincore.Gateway.Interceptor
import Fincore.Pkg.Jwks
import Fincore.Pkg.Token
import Fincore.Lib.Base64
import Fincore.Pkg.Password
import Fincore.Identity.Authorize
