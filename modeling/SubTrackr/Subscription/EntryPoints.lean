import SubTrackr.Subscription.Charge
import SubTrackr.Lib.Ledger

namespace SubTrackr.Subscriptions

open Lib Soroban

def maxPauseDuration : Nat := 2592000
def storageVersion : Nat := 2

def initializeContract (env : Env) (s : State) (admin : Address) : Result State := do
  env.requireAuth env.proxy
  env.requireAuth admin
  return { s with
    admin := some admin
    planCount := some 0
    subscriptionCount := some 0
    invoiceContract := none }

def migrateSubscription (s : State) (i : Nat) : State :=
  match s.subscription i with
  | some sub =>
    if sub.status ≠ .cancelled then
      { s with userPlanIndex := put s.userPlanIndex (sub.subscriber, sub.planId) sub.id }
    else s
  | none => s

def migrate (env : Env) (s : State) (fromVersion : Nat) : Result State := do
  env.requireAuth env.proxy
  if fromVersion = storageVersion then return s
  else do
    ensure (fromVersion < storageVersion) "Unsupported migration path"
    if fromVersion = 1 then
      return (List.range' 1 (s.subscriptionCount.getD 0)).foldl migrateSubscription s
    else .error (.message "Unsupported migration path")

def requireAdmin (env : Env) (s : State) : Result Unit := do
  let admin ← getAdmin s
  env.requireAuth admin

def setInvoiceContract (env : Env) (s : State) (invoice : Address) : Result State := do
  env.requireAuth env.proxy
  requireAdmin env s
  return { s with invoiceContract := some invoice }

def clearInvoiceContract (env : Env) (s : State) : Result State := do
  env.requireAuth env.proxy
  requireAdmin env s
  return { s with invoiceContract := none }

def setRateLimit (env : Env) (s : State) (function : String) (minIntervalSecs : Nat) : Result State := do
  env.requireAuth env.proxy
  requireAdmin env s
  return { s with rateLimit := put s.rateLimit function minIntervalSecs }

def removeRateLimit (env : Env) (s : State) (function : String) : Result State := do
  env.requireAuth env.proxy
  requireAdmin env s
  return { s with rateLimit := remove s.rateLimit function }

def validateMevConfig (config : MevProtectionConfig) : Result Unit := do
  ensure (0 < config.largeChargeThreshold) "Large charge threshold must be positive"
  ensure (config.maxFeeBps ≤ 10000) "Max fee bps too high"
  ensure (config.revealDelaySecs < config.commitTtlSecs) "Commit TTL must exceed reveal delay"

def configureMevProtection (env : Env) (s : State) (admin : Address) (config : MevProtectionConfig) :
    Result State := do
  env.requireAuth env.proxy
  let storedAdmin ← getAdmin s
  ensure (admin = storedAdmin) "Admin mismatch"
  env.requireAuth admin
  validateMevConfig config
  let s := { s with mevProtectionConfig := some config }
  return s.publish (.mevConfigured admin config.largeChargeThreshold config.maxFeeBps
    config.privateMempoolRequired config.gasPriceAlertThreshold)

def notPending (now : Nat) (pending : Option ChargeCommitment) : Result Unit :=
  match pending with
  | none => .ok ()
  | some existing => ensure (existing.expiresAt < now) "Pending charge commitment exists"

def commitCharge (env : Env) (s : State) (subscriptionId : Nat) (commitment : BytesN 32) :
    Result State := do
  env.requireAuth env.proxy
  let sub ← expect (s.subscription subscriptionId) "Subscription not found"
  env.requireAuth sub.subscriber
  let now := env.timestamp
  notPending now (s.chargeCommitment subscriptionId)
  let config := getMevConfig s
  let minRevealAt ← u64 (now + config.revealDelaySecs)
  let expiresAt ← u64 (now + config.commitTtlSecs)
  let pending : ChargeCommitment := ⟨subscriptionId, sub.subscriber, commitment, now, minRevealAt, expiresAt⟩
  let s := { s with chargeCommitment := put s.chargeCommitment subscriptionId pending }
  return s.publish (.chargeCommitted subscriptionId pending.subscriber minRevealAt expiresAt)

def revealCharge (env : Env) (s : State) (subscriptionId : Nat) (salt : BytesN 32)
    (maxChargeAmount : Int) (observedGasPrice : Nat) (privateMempool : Bool) : Result State := do
  env.requireAuth env.proxy
  let pending ← expect (s.chargeCommitment subscriptionId) "Charge commitment not found"
  let now := env.timestamp
  ensure (pending.minRevealAt ≤ now) "Reveal delay not met"
  ensure (now ≤ pending.expiresAt) "Charge commitment expired"
  ensure (pending.commitment = buildChargeCommitment env subscriptionId maxChargeAmount salt)
    "Commitment mismatch"
  env.requireAuth pending.subscriber
  let s := { s with chargeCommitment := remove s.chargeCommitment subscriptionId }
  let s := s.publish (.chargeRevealed subscriptionId maxChargeAmount observedGasPrice privateMempool now)
  chargeSubscriptionGuarded env s subscriptionId maxChargeAmount observedGasPrice privateMempool true

def createPlan (env : Env) (s : State) (merchant : Address) (name : String) (price : Int)
    (token : Address) (interval : Interval) : Result State := do
  env.requireAuth env.proxy
  let s ← limitCalls env s merchant "create_plan"
  env.requireAuth merchant
  ensure (0 < price) "Price must be positive"
  let count ← u64 (s.planCount.getD 0 + 1)
  let plan : Plan :=
    { id := count, merchant, name, price, token, interval
      active := true, subscriberCount := 0, createdAt := env.timestamp }
  let s := { s with plan := put s.plan count plan, planCount := some count }
  let merchantPlans := (s.merchantPlans merchant).getD []
  return { s with merchantPlans := put s.merchantPlans merchant (merchantPlans ++ [count]) }

def deactivatePlan (env : Env) (s : State) (merchant : Address) (planId : Nat) : Result State := do
  env.requireAuth env.proxy
  let s ← limitCalls env s merchant "deactivate_plan"
  env.requireAuth merchant
  let plan ← expect (s.plan planId) "Plan not found"
  ensure (plan.merchant = merchant) "Only plan owner can deactivate"
  return { s with plan := put s.plan planId { plan with active := false } }

def notSubscribed (s : State) (existing : Option Nat) : Result Unit :=
  match existing with
  | none => .ok ()
  | some existingId => do
    let existingSub ← expect (s.subscription existingId) "Subscription not found"
    ensure (existingSub.status = .cancelled) "Already subscribed to this plan"

def subscribe (env : Env) (s : State) (subscriber : Address) (planId : Nat) : Result State := do
  env.requireAuth env.proxy
  let s ← limitCalls env s subscriber "subscribe"
  env.requireAuth subscriber
  let plan ← expect (s.plan planId) "Plan not found"
  ensure (plan.active = true) "Plan is not active"
  ensure (plan.merchant ≠ subscriber) "Merchant cannot self-subscribe"
  notSubscribed s (s.userPlanIndex (subscriber, planId))
  let subCount ← u64 (s.subscriptionCount.getD 0 + 1)
  let now := env.timestamp
  let nextChargeAt ← u64 (now + plan.interval.seconds)
  let subscription : Subscription :=
    { id := subCount, planId, subscriber, status := .active
      startedAt := now, lastChargedAt := now, nextChargeAt
      totalPaid := 0, totalGasSpent := 0, chargeCount := 0
      pausedAt := 0, pauseDuration := 0, refundRequestedAmount := 0 }
  let s := { s with
    subscription := put s.subscription subCount subscription
    subscriptionCount := some subCount }
  let userSubs := (s.userSubscriptions subscriber).getD []
  let s := { s with userSubscriptions := put s.userSubscriptions subscriber (userSubs ++ [subCount]) }
  let s := { s with userPlanIndex := put s.userPlanIndex (subscriber, planId) subCount }
  let subscriberCount ← u32 (plan.subscriberCount + 1)
  return { s with plan := put s.plan planId { plan with subscriberCount } }

def cancelSubscription (env : Env) (s : State) (subscriber : Address) (subscriptionId : Nat) :
    Result State := do
  env.requireAuth env.proxy
  let s ← limitCalls env s subscriber "cancel_subscription"
  env.requireAuth subscriber
  let sub ← expect (s.subscription subscriptionId) "Subscription not found"
  ensure (sub.subscriber = subscriber) "Only subscriber can cancel"
  ensure (sub.status = .active ∨ sub.status = .paused) "Subscription not active"
  let sub := { sub with status := .cancelled }
  let s := { s with subscription := put s.subscription subscriptionId sub }
  let s := { s with userPlanIndex := remove s.userPlanIndex (subscriber, sub.planId) }
  let plan ← expect (s.plan sub.planId) "Plan not found"
  -- the guard keeps a count of zero, so the truncated subtraction is the source's branch
  return { s with plan := put s.plan sub.planId { plan with subscriberCount := plan.subscriberCount - 1 } }

def pauseBySubscriber (env : Env) (s : State) (subscriber : Address) (subscriptionId duration : Nat) :
    Result State := do
  env.requireAuth env.proxy
  let s ← limitCalls env s subscriber "pause_by_subscriber"
  env.requireAuth subscriber
  let sub ← expect (s.subscription subscriptionId) "Subscription not found"
  ensure (sub.subscriber = subscriber) "Only subscriber can pause"
  ensure (sub.status = .active) "Only active subscriptions can be paused"
  ensure (duration ≤ maxPauseDuration) "Pause duration exceeds limit"
  let sub := { sub with status := .paused, pausedAt := env.timestamp, pauseDuration := duration }
  let s := { s with subscription := put s.subscription subscriptionId sub }
  return s.publish (.subscriptionPaused subscriber subscriptionId sub.pausedAt duration)

def pauseSubscription (env : Env) (s : State) (subscriber : Address) (subscriptionId : Nat) :
    Result State := do
  env.requireAuth env.proxy
  let s ← limitCalls env s subscriber "pause_subscription"
  pauseBySubscriber env s subscriber subscriptionId maxPauseDuration

/-- `sub.status == Paused || check_and_resume_internal(..)`: the second operand only runs on a
    subscription that is not paused. -/
def resumable (env : Env) (sub : Subscription) : Result (Subscription × Bool) :=
  if sub.status = .paused then .ok (sub, true) else checkAndResumeInternal env sub

def resumeSubscription (env : Env) (s : State) (subscriber : Address) (subscriptionId : Nat) :
    Result State := do
  env.requireAuth env.proxy
  let s ← limitCalls env s subscriber "resume_subscription"
  env.requireAuth subscriber
  let sub ← expect (s.subscription subscriptionId) "Subscription not found"
  ensure (sub.subscriber = subscriber) "Only subscriber can resume"
  let checked ← resumable env sub
  ensure (checked.2 = true) "Only paused subscriptions can be resumed"
  let sub := checked.1
  let now := env.timestamp
  let plan ← expect (s.plan sub.planId) "Plan not found"
  let nextChargeAt ← u64 (now + plan.interval.seconds)
  let sub := { sub with status := .active, nextChargeAt, pausedAt := 0, pauseDuration := 0 }
  let s := { s with subscription := put s.subscription subscriptionId sub }
  return s.publish (.subscriptionResumed subscriber subscriptionId)

def chargeSubscription (env : Env) (s : State) (subscriptionId : Nat) : Result State := do
  env.requireAuth env.proxy
  chargeSubscriptionGuarded env s subscriptionId i128Max 0 false false

def requestRefund (env : Env) (s : State) (subscriptionId : Nat) (amount : Int) : Result State := do
  env.requireAuth env.proxy
  let sub ← expect (s.subscription subscriptionId) "Subscription not found"
  let s ← limitCalls env s sub.subscriber "request_refund"
  env.requireAuth sub.subscriber
  ensure (0 < amount) "Refund amount must be positive"
  ensure (amount ≤ sub.totalPaid) "Refund amount cannot exceed total paid"
  let sub := { sub with refundRequestedAmount := amount }
  let s := { s with subscription := put s.subscription subscriptionId sub }
  return s.publish (.refundRequested subscriptionId sub.subscriber amount)

def approveRefund (env : Env) (s : State) (subscriptionId : Nat) : Result State := do
  env.requireAuth env.proxy
  let sub ← expect (s.subscription subscriptionId) "Subscription not found"
  requireAdmin env s
  let amount := sub.refundRequestedAmount
  ensure (0 < amount) "No pending refund request"
  let _plan ← expect (s.plan sub.planId) "Plan not found"
  let totalPaid ← i128 (sub.totalPaid - amount)
  let sub := { sub with totalPaid, refundRequestedAmount := 0 }
  let s := { s with subscription := put s.subscription subscriptionId sub }
  return s.publish (.refundApproved subscriptionId sub.subscriber amount)

def rejectRefund (env : Env) (s : State) (subscriptionId : Nat) : Result State := do
  env.requireAuth env.proxy
  let sub ← expect (s.subscription subscriptionId) "Subscription not found"
  requireAdmin env s
  ensure (0 < sub.refundRequestedAmount) "No pending refund request"
  let sub := { sub with refundRequestedAmount := 0 }
  let s := { s with subscription := put s.subscription subscriptionId sub }
  return s.publish (.refundRejected subscriptionId sub.subscriber)

def requestTransfer (env : Env) (s : State) (subscriptionId : Nat) (recipient : Address) :
    Result State := do
  env.requireAuth env.proxy
  let sub ← expect (s.subscription subscriptionId) "Subscription not found"
  let s ← limitCalls env s sub.subscriber "request_transfer"
  env.requireAuth sub.subscriber
  ensure (sub.status ≠ .cancelled) "Subscription is cancelled"
  ensure (sub.subscriber ≠ recipient) "Cannot transfer to self"
  let s := { s with pendingTransfer := put s.pendingTransfer subscriptionId recipient }
  return s.publish (.transferRequested subscriptionId sub.subscriber recipient)

def acceptTransfer (env : Env) (s : State) (subscriptionId : Nat) (recipient : Address) :
    Result State := do
  env.requireAuth env.proxy
  let s ← limitCalls env s recipient "accept_transfer"
  env.requireAuth recipient
  let sub ← expect (s.subscription subscriptionId) "Subscription not found"
  let pendingRecipient ← expect (s.pendingTransfer subscriptionId)
    "No pending transfer for this subscription"
  ensure (pendingRecipient = recipient) "Transfer recipient mismatch"
  let oldUserSubs := (s.userSubscriptions sub.subscriber).getD []
  let newList := oldUserSubs.filter (· ≠ subscriptionId)
  let s := { s with userSubscriptions := put s.userSubscriptions sub.subscriber newList }
  let recUserSubs := (s.userSubscriptions recipient).getD []
  let s := { s with userSubscriptions := put s.userSubscriptions recipient (recUserSubs ++ [subscriptionId]) }
  let s := { s with userPlanIndex := remove s.userPlanIndex (sub.subscriber, sub.planId) }
  let s := { s with userPlanIndex := put s.userPlanIndex (recipient, sub.planId) sub.id }
  let old := sub.subscriber
  let s := { s with subscription := put s.subscription subscriptionId { sub with subscriber := recipient } }
  let s := { s with pendingTransfer := remove s.pendingTransfer subscriptionId }
  return s.publish (.transferAccepted subscriptionId old recipient)

def getSubscription (env : Env) (s : State) (subscriptionId : Nat) : Result Subscription := do
  env.requireAuth env.proxy
  let sub ← expect (s.subscription subscriptionId) "Subscription not found"
  let checked ← checkAndResumeInternal env sub
  return checked.1

def setRevenueRule (env : Env) (s : State) (merchant : Address) (planId : Nat)
    (method : RecognitionMethod) (recognitionPeriod : Nat) : Result State := do
  env.requireAuth env.proxy
  env.requireAuth merchant
  let plan ← expect (s.plan planId) "Plan not found"
  ensure (plan.merchant = merchant) "Only plan owner can set revenue rule"
  return setRecognitionRule s ⟨planId, method, recognitionPeriod⟩

inductive Call where
  | migrate (fromVersion : Nat)
  | setInvoiceContract (invoice : Address)
  | clearInvoiceContract
  | setRateLimit (function : String) (minIntervalSecs : Nat)
  | removeRateLimit (function : String)
  | configureMevProtection (admin : Address) (config : MevProtectionConfig)
  | setRevenueRule (merchant : Address) (planId : Nat) (method : RecognitionMethod)
      (recognitionPeriod : Nat)
  | commitCharge (subscriptionId : Nat) (commitment : BytesN 32)
  | revealCharge (subscriptionId : Nat) (salt : BytesN 32) (maxChargeAmount : Int)
      (observedGasPrice : Nat) (privateMempool : Bool)
  | createPlan (merchant : Address) (name : String) (price : Int) (token : Address) (interval : Interval)
  | deactivatePlan (merchant : Address) (planId : Nat)
  | subscribe (subscriber : Address) (planId : Nat)
  | cancelSubscription (subscriber : Address) (subscriptionId : Nat)
  | pauseSubscription (subscriber : Address) (subscriptionId : Nat)
  | pauseBySubscriber (subscriber : Address) (subscriptionId duration : Nat)
  | resumeSubscription (subscriber : Address) (subscriptionId : Nat)
  | chargeSubscription (subscriptionId : Nat)
  | requestRefund (subscriptionId : Nat) (amount : Int)
  | approveRefund (subscriptionId : Nat)
  | rejectRefund (subscriptionId : Nat)
  | requestTransfer (subscriptionId : Nat) (recipient : Address)
  | acceptTransfer (subscriptionId : Nat) (recipient : Address)
  deriving DecidableEq

structure Tx where
  env : Env
  call : Call

def exec (tx : Tx) (s : State) : Result State :=
  match tx.call with
  | .migrate fromVersion => migrate tx.env s fromVersion
  | .setInvoiceContract invoice => setInvoiceContract tx.env s invoice
  | .clearInvoiceContract => clearInvoiceContract tx.env s
  | .setRateLimit function minIntervalSecs => setRateLimit tx.env s function minIntervalSecs
  | .removeRateLimit function => removeRateLimit tx.env s function
  | .configureMevProtection admin config => configureMevProtection tx.env s admin config
  | .setRevenueRule merchant planId method period => setRevenueRule tx.env s merchant planId method period
  | .commitCharge id commitment => commitCharge tx.env s id commitment
  | .revealCharge id salt maxChargeAmount gasPrice privateMempool =>
    revealCharge tx.env s id salt maxChargeAmount gasPrice privateMempool
  | .createPlan merchant name price token interval => createPlan tx.env s merchant name price token interval
  | .deactivatePlan merchant planId => deactivatePlan tx.env s merchant planId
  | .subscribe subscriber planId => subscribe tx.env s subscriber planId
  | .cancelSubscription subscriber id => cancelSubscription tx.env s subscriber id
  | .pauseSubscription subscriber id => pauseSubscription tx.env s subscriber id
  | .pauseBySubscriber subscriber id duration => pauseBySubscriber tx.env s subscriber id duration
  | .resumeSubscription subscriber id => resumeSubscription tx.env s subscriber id
  | .chargeSubscription id => chargeSubscription tx.env s id
  | .requestRefund id amount => requestRefund tx.env s id amount
  | .approveRefund id => approveRefund tx.env s id
  | .rejectRefund id => rejectRefund tx.env s id
  | .requestTransfer id recipient => requestTransfer tx.env s id recipient
  | .acceptTransfer id recipient => acceptTransfer tx.env s id recipient

def contract : Contract Tx State Panic where
  time tx := tx.env.timestamp
  exec := exec

abbrev World := Ledger Tx State

def Initialised (s : State) : Prop :=
  ∃ (env : Env) (admin : Address), initializeContract env .empty admin = .ok s

abbrev Reachable (guard : World → Tx → Prop) (w : World) : Prop :=
  Ledger.Reachable contract Initialised guard w

abbrev Steps (guard : World → Tx → Prop) (w w' : World) : Prop := Ledger.Steps contract guard w w'

abbrev submit (w : World) (tx : Tx) : World := Ledger.submit contract w tx

def Env.willing (now : Nat) : Env where
  timestamp := now
  authorized := fun _ => true
  proxy := ⟨0⟩
  storage := ⟨1⟩
  sha256 := fun _ => Vector.replicate 32 0
  tokenTransfer := fun _ _ _ _ => true
  invokeContract := fun _ _ _ _ => .ok ()

def State.initial (admin : Address) : State :=
  { State.empty with admin := some admin, planCount := some 0, subscriptionCount := some 0 }

theorem initialised_iff (s : State) : Initialised s ↔ ∃ admin, s = .initial admin := by
  constructor
  · intro holds
    rcases holds with ⟨env, admin, run⟩
    simp only [initializeContract, bind_eq_ok, pure_eq_ok] at run
    rcases run with ⟨_, _, _, _, rfl⟩
    exact ⟨admin, rfl⟩
  · intro holds
    rcases holds with ⟨admin, rfl⟩
    exact ⟨.willing 0, admin, rfl⟩

theorem Reachable.initial (guard : World → Tx → Prop) (admin : Address) :
    Reachable guard (Ledger.genesis (.initial admin)) :=
  ⟨.initial admin, (initialised_iff _).mpr ⟨admin, rfl⟩, .refl⟩

def trial (calls : List (Nat × Call)) : World :=
  Ledger.run contract (Ledger.genesis (.initial ⟨9⟩)) (calls.map fun (now, call) => ⟨.willing now, call⟩)

theorem trial_inOrder {calls : List (Nat × Call)} (sorted : (0 :: calls.map (·.1)).IsChain (· ≤ ·)) :
    Reachable (Ledger.inOrder contract) (trial calls) := by
  refine (Reachable.initial _ ⟨9⟩).steps (.run_inOrder ?_)
  rwa [List.map_map]

theorem trial_reachable {guard : World → Tx → Prop} {calls : List (Nat × Call)}
    (met : ∀ now call, (now, call) ∈ calls → ∀ w, guard w ⟨.willing now, call⟩) :
    Reachable guard (trial calls) := by
  refine (Reachable.initial guard ⟨9⟩).steps (.run ?_ _)
  simp only [List.mem_map, Prod.exists]
  intro _ mapped
  rcases mapped with ⟨now, call, mem, rfl⟩
  exact met now call mem

end SubTrackr.Subscriptions
