import SubTrackr.Subscription.Uniqueness
import SubTrackr.Subscription.Schedule
import SubTrackr.Subscription.CommitReveal
import SubTrackr.Subscription.Invoicing
import SubTrackr.Proxy.Expiry
import SubTrackr.Proxy.Replay
import SubTrackr.Credit.Authority
import SubTrackr.Credit.LazyExpiry
import SubTrackr.AccessControl.Multisig
import SubTrackr.AccessControl.Delegations
import SubTrackr.Metering.Periods
import SubTrackr.Batch.Atomic
import SubTrackr.Oracle.Breaker
import SubTrackr.Oracle.Observations
import SubTrackr.Invoice.MidCycle
import SubTrackr.Invoice.Keys
import SubTrackr.Invoice.Lifecycle
import SubTrackr.Billing.OnChain
import SubTrackr.Billing.CreditReplay
import SubTrackr.Crdt.Convergence
import SubTrackr.Indexer.Reorg
import SubTrackr.Idempotency.AtMostOnce
import SubTrackr.Audit.Tampering
import SubTrackr.FairQueue.Conservation
import SubTrackr.JobQueue.LifeCycle
import SubTrackr.Resilience.CircuitBreaker
import SubTrackr.RateLimit.TokenBucket
import SubTrackr.Pagination.Pages
import SubTrackr.EventStore.Paging
import SubTrackr.ImportExport.Import
import SubTrackr.Group.Shares
import SubTrackr.Usage.Periods
import SubTrackr.Group.Periods
import SubTrackr.Pause.Clawbacks
import SubTrackr.Dunning.Progress
import SubTrackr.Security.RoundTrip
import SubTrackr.Sync.Convergence
import SubTrackr.Cache.Invalidation
import SubTrackr.PaymentMethods.Following
import SubTrackr.PaymentMethods.WellFormed
import SubTrackr.Rotation.Laws
import SubTrackr.BatchTransactions.Applied
import SubTrackr.Fallback.Capture
import SubTrackr.PlanTemplates.LiveVersions
import SubTrackr.Subscription.RevenueTotals
import SubTrackr.Partner.Pending
import SubTrackr.Tax.DigitalGoods
import SubTrackr.Fraud.Laundering
import SubTrackr.Sla.Accounting
import SubTrackr.AdminMultisig.Threshold
import SubTrackr.Retry.Bounded
import SubTrackr.Charging.Safety
import SubTrackr.IntelligentCache.TagInvalidation
import SubTrackr.QueryRouting.Routed
import SubTrackr.Trial.LifeCycle
import SubTrackr.RevenueJob.Exactness
import SubTrackr.Webhook.Interleaving
import SubTrackr.PaymentTimeout.Settled
import SubTrackr.Calendar.LatestEdit
import SubTrackr.ServerlessPool.Exclusive
import SubTrackr.Encryption.Lossless
import SubTrackr.Affiliates.Balanced
import SubTrackr.Roles.NoEscalation
import SubTrackr.Api.RetryAfter
import SubTrackr.FairQueue.Redistribution
import SubTrackr.Tax.MidCycleChange
import SubTrackr.Lockout.AccountLockoutService
import SubTrackr.Utils.Proration
import SubTrackr.Idempotency.RequestHash
import SubTrackr.Subscription.Pacing
