import BrainCore.Foundation.Digits
import BrainCore.Audit.VerifyContentHash
import BrainCore.Audit.ChainLinearity
import BrainCore.Audit.AnchorCoverage
import BrainCore.Audit.AuditConsistency
import BrainCore.Audit.CanonicalJson
import BrainCore.Audit.MerkleSoundness
import BrainCore.Audit.MerkleCompleteness
import BrainCore.Surfaces.ShownProposals
import BrainCore.Surfaces.ShownSafety
import BrainCore.Foundation.Machine
import BrainCore.Foundation.Table
import BrainCore.Foundation.Isolation
import BrainCore.Gate.HumanApproval
import BrainCore.Gate.ReputationTightening
import BrainCore.Gate.TrustGate
import BrainCore.Shared.ApproverRoles
import BrainCore.Graduation.Provisioning
import BrainCore.Graduation.Completion
import BrainCore.Graduation.HeldDestination
import BrainCore.Graduation.OneDestination
import BrainCore.Graduation.CompletionSafety
import BrainCore.Ledger.PaymentIntents
import BrainCore.Ledger.Reservations
import BrainCore.Foundation.HexWords
import BrainCore.Execution.EscrowUnits
import BrainCore.Execution.EscrowRail
import BrainCore.Shared.Ratelimit.HitCountingSafety
import BrainCore.Ledger.NameMerging
import BrainCore.Ledger.Counterparties
import BrainCore.Foundation.Ports
import BrainCore.Auth.OauthFamilies
import BrainCore.Auth.OauthFamilySafety
import BrainCore.Auth.OauthScopes
import BrainCore.Canonical.ConnectorLedger
import BrainCore.Canonical.NaturalKeys
import BrainCore.Foundation.TaggedKeys
import BrainCore.Commercial.X402Seller
import BrainCore.Commercial.PaidFulfillment
import BrainCore.Raw.Csv
import BrainCore.Audit.AnchorWindows
import BrainCore.Execution.SagaCompensation
import BrainCore.Execution.SpendPermission
import BrainCore.Commercial.ShadowDaily
import BrainCore.Commercial.ShadowDailyOnce
import BrainCore.Foundation.SlidingWindows
import BrainCore.Shared.Ratelimit.BucketLimit
import BrainCore.Usage.CommercialTiers
import BrainCore.Usage.CommercialTierRuns
import BrainCore.Execution.RedactionLeaks
import BrainCore.Contracts.SessionKeyHistories
import BrainCore.Execution.PerTaskKeys
import BrainCore.Deletion.AuditOutbox
import BrainCore.Deletion.AuditOutboxSafety
import BrainCore.Deletion.AuditOutboxConflicts
import BrainCore.Members.AmountCents
import BrainCore.Members.ApproveQuorum
import BrainCore.Members.ApproveInterleaving
import BrainCore.Policy.SpendEnvelope
import BrainCore.Policy.Evaluability
import BrainCore.Policy.Linter
import BrainCore.Policy.Cron
import BrainCore.Policy.Canonicalize
import BrainCore.Execution.Outbox.OutboxService
import BrainCore.Execution.Outbox.Worker
import BrainCore.Execution.Outbox.WorkerSafety
import BrainCore.Execution.Outbox.WorkerDispatches
import BrainCore.Foundation.Closure
import BrainCore.Execution.LifecycleTransactions
import BrainCore.Policy.DuplicateDetector
import BrainCore.Contracts.AuditAnchor
import BrainCore.Contracts.RegistrySafety
import BrainCore.Contracts.EscrowSafety
import BrainCore.Contracts.SessionKeyBudget
import BrainCore.Shared.Ratelimit.SlidingWindowAgreement
import BrainCore.Shared.Idempotency.PluginSafety
import BrainCore.Policy.PolicySafety
import BrainCore.Execution.LifecycleRuns
import BrainCore.Raw.ParsedSafety
import BrainCore.Canonical.VersionRuns
import BrainCore.Ledger.CorroborationLaw
import BrainCore.Ledger.CategorySafety
import BrainCore.Foundation.CallRoles
import BrainCore.Foundation.Failures
import BrainCore.Raw.SyncSafety
import BrainCore.AgentRouter.RunSafety
import BrainCore.AgentRouter.RunParity
import BrainCore.Proposals.DecisionEvents
import BrainCore.Foundation.Script
import BrainCore.Shared.Events.BusDelivery
import BrainCore.Surfaces.PolicyEngine
import BrainCore.Surfaces.ApprovalPipeline
import BrainCore.Surfaces.ApprovalSafety
import BrainCore.Foundation.Grouping
import BrainCore.Shared.Net.Ssrf
import BrainCore.Shared.Net.SafeFetch
import BrainCore.Shared.Net.WebhookDelivery
import BrainCore.Shared.Net.OutboundSafety
import BrainCore.Usage.BillingPeriods
import BrainCore.Surfaces.EmailRecipients
import BrainCore.Members.SignatureRefresh
import BrainCore.Ledger.ReservationTotality
import BrainCore.Shared.DecimalAgreement
import BrainCore.Raw.ExtractionSafety
