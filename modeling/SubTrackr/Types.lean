import SubTrackr.Soroban

namespace SubTrackr

open Soroban

inductive Interval where
  | daily | weekly | monthly | quarterly | yearly
  deriving DecidableEq

def Interval.seconds : Interval → Nat
  | .daily => 86400
  | .weekly => 604800
  | .monthly => 2592000
  | .quarterly => 7776000
  | .yearly => 31536000

inductive SubscriptionStatus where
  | active | paused | cancelled | pastDue
  deriving DecidableEq

structure TimeRange where
  (start finish : Nat)

structure Plan where
  id : Nat
  merchant : Address
  name : String
  price : Int
  token : Address
  interval : Interval
  active : Bool
  (subscriberCount createdAt : Nat)

structure Subscription where
  (id planId : Nat)
  subscriber : Address
  status : SubscriptionStatus
  (startedAt lastChargedAt nextChargeAt : Nat)
  totalPaid : Int
  (totalGasSpent chargeCount pausedAt pauseDuration : Nat)
  refundRequestedAmount : Int

structure MevProtectionConfig where
  largeChargeThreshold : Int
  (maxFeeBps revealDelaySecs commitTtlSecs : Nat)
  privateMempoolRequired : Bool
  gasPriceAlertThreshold : Nat
  deriving DecidableEq

structure ChargeCommitment where
  subscriptionId : Nat
  subscriber : Address
  commitment : BytesN 32
  (committedAt minRevealAt expiresAt : Nat)

structure MevAlert where
  (id subscriptionId observedGasPrice threshold detectedAt : Nat)

inductive Val where
  | void
  | address (a : Address)
  | u32 (n : Nat)
  | u64 (n : Nat)
  | timeRange (period : TimeRange)
  | string (s : String)

inductive Role where
  | admin | merchant | subscriber | auditor
  deriving DecidableEq

inductive Permission where
  | grantRole | revokeRole | delegatePermission | createPlan | deactivatePlan | setPlanQuotas | setRevenueRule
  | subscribe | cancelSubscription | pauseSubscription | resumeSubscription | chargeSubscription | requestRefund
  | approveRefund | rejectRefund | requestTransfer | acceptTransfer | setRateLimit | removeRateLimit
  | setInvoiceContract | clearInvoiceContract | upgradeContract | migrateContract | viewAnalytics | viewAuditLog
  | viewPlans | viewSubscriptions | setEmergencyAdmin | pauseEmergency | setAccessControl
  deriving DecidableEq

inductive RoleChangeAction where
  | granted | revoked
  deriving DecidableEq

structure RoleChangeEntry where
  id : Nat
  user : Address
  role : Role
  action : RoleChangeAction
  changedBy : Address
  timestamp : Nat

end SubTrackr
