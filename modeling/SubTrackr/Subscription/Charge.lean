import SubTrackr.Types
import SubTrackr.Lib.Store

namespace SubTrackr.Subscriptions

open Lib Soroban

inductive RecognitionMethod where
  | straightLine | usageBased
  deriving DecidableEq

structure RevenueRecognitionRule where
  planId : Nat
  method : RecognitionMethod
  recognitionPeriod : Nat

structure RevenueScheduleEntry where
  (periodStart periodEnd : Nat)
  recognisedAmount : Int
  isRecognised : Bool

structure RevenueSchedule where
  subscriptionId : Nat
  totalAmount : Int
  entries : List RevenueScheduleEntry

structure TokenTransfer where
  subscriptionId : Nat
  (token sender recipient : Address)
  amount : Int

inductive Event where
  | mevConfigured (admin : Address) (largeChargeThreshold : Int) (maxFeeBps : Nat)
      (privateMempoolRequired : Bool) (gasPriceAlertThreshold : Nat)
  | mevGasAlert (subscriptionId observedGasPrice threshold detectedAt : Nat)
  | chargeCommitted (subscriptionId : Nat) (subscriber : Address) (minRevealAt expiresAt : Nat)
  | chargeRevealed (subscriptionId : Nat) (maxChargeAmount : Int) (observedGasPrice : Nat)
      (privateMempool : Bool) (now : Nat)
  | subscriptionCharged (subscriptionId : Nat) (subscriber : Address) (price : Int) (gas now : Nat)
  | subscriptionPaused (subscriber : Address) (subscriptionId pausedAt duration : Nat)
  | subscriptionResumed (subscriber : Address) (subscriptionId : Nat)
  | refundRequested (subscriptionId : Nat) (subscriber : Address) (amount : Int)
  | refundApproved (subscriptionId : Nat) (subscriber : Address) (amount : Int)
  | refundRejected (subscriptionId : Nat) (subscriber : Address)
  | transferRequested (subscriptionId : Nat) (subscriber recipient : Address)
  | transferAccepted (subscriptionId : Nat) (old recipient : Address)

structure Registry where
  plan : Store Nat Plan
  planCount : Option Nat
  subscription : Store Nat Subscription
  subscriptionCount : Option Nat
  (userSubscriptions merchantPlans : Store Address (List Nat))
  userPlanIndex : Store (Address × Nat) Nat
  pendingTransfer : Store Nat Address

structure Books extends Registry where
  chargeCommitment : Store Nat ChargeCommitment
  transfers : List TokenTransfer

structure Settings where
  admin : Option Address
  rateLimit : Store String Nat
  lastCall : Store (Address × String) Nat
  invoiceContract : Option Address
  mevProtectionConfig : Option MevProtectionConfig

structure RevenueBooks where
  revenueRecognitionRule : Store Nat RevenueRecognitionRule
  revenueSchedule : Store Nat RevenueSchedule
  (revenueDeferredBalance revenueRecognisedBalance : Store Address Int)
  revenueMerchantSubscriptions : Store Address (List Nat)

/-- What the storage contract holds for this contract, with the published events and the token
    movements of its calls. One field stands for one `StorageKey` variant. -/
structure State extends Books, Settings, RevenueBooks where
  mevAlertCount : Option Nat
  mevAlert : Store Nat MevAlert
  events : List Event

def State.empty : State where
  plan := fun _ => none
  planCount := none
  subscription := fun _ => none
  subscriptionCount := none
  userSubscriptions := fun _ => none
  merchantPlans := fun _ => none
  userPlanIndex := fun _ => none
  pendingTransfer := fun _ => none
  chargeCommitment := fun _ => none
  transfers := []
  admin := none
  rateLimit := fun _ => none
  lastCall := fun _ => none
  invoiceContract := none
  mevProtectionConfig := none
  revenueRecognitionRule := fun _ => none
  revenueSchedule := fun _ => none
  revenueDeferredBalance := fun _ => none
  revenueRecognisedBalance := fun _ => none
  revenueMerchantSubscriptions := fun _ => none
  mevAlertCount := none
  mevAlert := fun _ => none
  events := []

def State.publish (s : State) (event : Event) : State := { s with events := s.events ++ [event] }

/-- The host as this contract uses it: the `proxy` and `storage` arguments every entry point takes,
    the hash function, and the other contracts. A token's `transfer` moves exactly its amount or panics, so
    one Boolean says all of it. Another contract is called with the storage it may read. -/
structure Env extends Host where
  (proxy storage : Address)
  sha256 : Bytes → BytesN 32
  tokenTransfer : (token sender recipient : Address) → Int → Bool
  invokeContract : State → (contract : Address) → (function : String) → List Val → Result Unit

def straightLineEntry (chargeTime periodSecs numPeriods : Nat) (slice remainder : Int) (i : Nat) :
    Result RevenueScheduleEntry := do
  let offset ← u64 (i * periodSecs)
  let start ← u64 (chargeTime + offset)
  let finish ← u64 (start + periodSecs)
  let amount ← lastOrSlice
  return ⟨start, finish, amount, false⟩
where
  lastOrSlice : Result Int := if i = numPeriods - 1 then i128 (slice + remainder) else .ok slice

def buildStraightLineSchedule (subscriptionId : Nat) (totalAmount : Int)
    (chargeTime periodSecs numPeriods : Nat) : Result RevenueSchedule := do
  ensure (0 < numPeriods) "num_periods must be > 0"
  ensure (0 < periodSecs) "period_secs must be > 0"
  ensure (0 ≤ totalAmount) "total_amount must be non-negative"
  let slice := totalAmount.tdiv numPeriods
  let remainder := totalAmount - slice * numPeriods
  let entries ← (List.range numPeriods).mapM
    (straightLineEntry chargeTime periodSecs numPeriods slice remainder)
  return ⟨subscriptionId, totalAmount, entries⟩

def buildUsageBasedSchedule (subscriptionId : Nat) (totalAmount : Int)
    (chargeTime intervalSecs : Nat) : Result RevenueSchedule := do
  let finish ← u64 (chargeTime + intervalSecs)
  return ⟨subscriptionId, totalAmount, [⟨chargeTime, finish, totalAmount, false⟩]⟩

def numPeriods (intervalSecs recognitionPeriod : Nat) : Nat :=
  if 0 < recognitionPeriod then (intervalSecs + recognitionPeriod - 1) / recognitionPeriod % 2 ^ 32 else 1

def buildSchedule (rule : Option RevenueRecognitionRule) (subscriptionId : Nat) (totalAmount : Int)
    (chargeTime intervalSecs : Nat) : Result RevenueSchedule :=
  match rule with
  | some rule =>
    match rule.method with
    | .straightLine =>
      buildStraightLineSchedule subscriptionId totalAmount chargeTime rule.recognitionPeriod
        (numPeriods intervalSecs rule.recognitionPeriod)
    | .usageBased => buildUsageBasedSchedule subscriptionId totalAmount chargeTime intervalSecs
  | none => buildStraightLineSchedule subscriptionId totalAmount chargeTime intervalSecs 1

def generateRevenueSchedule (s : State) (subscriptionId planId : Nat) (totalAmount : Int)
    (chargeTime intervalSecs : Nat) : Result State := do
  let schedule ← buildSchedule (s.revenueRecognitionRule planId) subscriptionId totalAmount
    chargeTime intervalSecs
  return { s with revenueSchedule := put s.revenueSchedule subscriptionId schedule }

def updateMerchantRevenueBalances (s : State) (merchant : Address)
    (recognisedDelta deferredDelta : Int) : Result State := do
  let recognised ← i128 ((s.revenueRecognisedBalance merchant).getD 0 + recognisedDelta)
  let deferred ← i128 ((s.revenueDeferredBalance merchant).getD 0 + deferredDelta)
  return { s with
    revenueRecognisedBalance := put s.revenueRecognisedBalance merchant recognised
    revenueDeferredBalance := put s.revenueDeferredBalance merchant deferred }

def trackMerchantSubscription (s : State) (merchant : Address) (subscriptionId : Nat) : State :=
  let ids := (s.revenueMerchantSubscriptions merchant).getD []
  if subscriptionId ∈ ids then s
  else { s with
    revenueMerchantSubscriptions := put s.revenueMerchantSubscriptions merchant (ids ++ [subscriptionId]) }

def setRecognitionRule (s : State) (rule : RevenueRecognitionRule) : State :=
  { s with revenueRecognitionRule := put s.revenueRecognitionRule rule.planId rule }

def RevenueOnly (s s' : State) : Prop := ∃ books : RevenueBooks, s' = { s with toRevenueBooks := books }

theorem generateRevenueSchedule_only {s s' : State} {subId planId : Nat} {total : Int}
    {chargeTime intervalSecs : Nat}
    (run : generateRevenueSchedule s subId planId total chargeTime intervalSecs = .ok s') :
    RevenueOnly s s' := by
  simp only [generateRevenueSchedule, bind_eq_ok, pure_eq_ok] at run
  rcases run with ⟨schedule, _, rfl⟩
  exact ⟨_, rfl⟩

theorem updateMerchantRevenueBalances_only {s s' : State} {merchant : Address}
    {recognisedDelta deferredDelta : Int}
    (run : updateMerchantRevenueBalances s merchant recognisedDelta deferredDelta = .ok s') :
    RevenueOnly s s' := by
  simp only [updateMerchantRevenueBalances, bind_eq_ok, pure_eq_ok] at run
  rcases run with ⟨_, _, _, _, rfl⟩
  exact ⟨_, rfl⟩

theorem trackMerchantSubscription_only (s : State) (merchant : Address) (subId : Nat) :
    RevenueOnly s (trackMerchantSubscription s merchant subId) := by
  simp only [trackMerchantSubscription]
  split
  · exact ⟨s.toRevenueBooks, rfl⟩
  · exact ⟨_, rfl⟩

def getAdmin (s : State) : Result Address := expect s.admin "Admin not set"

def waited (now minSecs : Nat) (last : Option Nat) : Result Unit :=
  match last with
  | none => .ok ()
  | some last => do
    let next ← u64 (last + minSecs)
    ensure (next ≤ now) "Rate limited: please wait before calling this function again"

/-- The violation event that the source publishes before it panics is reverted with the call. -/
def enforceRateLimit (env : Env) (s : State) (caller : Address) (functionName : String) : Result State :=
  match s.rateLimit functionName with
  | none => .ok s
  | some minSecs =>
    if minSecs = 0 then .ok s
    else do
      waited env.timestamp minSecs (s.lastCall (caller, functionName))
      return { s with lastCall := put s.lastCall (caller, functionName) env.timestamp }

def limitCalls (env : Env) (s : State) (caller : Address) (functionName : String) : Result State := do
  let admin ← getAdmin s
  if caller ≠ admin then enforceRateLimit env s caller functionName else .ok s

def resumed (sub : Subscription) : Subscription :=
  { sub with status := .active, pausedAt := 0, pauseDuration := 0 }

def checkAndResumeInternal (env : Env) (sub : Subscription) : Result (Subscription × Bool) :=
  if sub.status = .paused then do
    let elapsesAt ← u64 (sub.pausedAt + sub.pauseDuration)
    return if elapsesAt ≤ env.timestamp then (resumed sub, true) else (sub, false)
  else .ok (sub, false)

def getMevConfig (s : State) : MevProtectionConfig :=
  s.mevProtectionConfig.getD
    { largeChargeThreshold := i128Max
      maxFeeBps := 100
      revealDelaySecs := 30
      commitTtlSecs := 3600
      privateMempoolRequired := false
      gasPriceAlertThreshold := u64Max }

def maxChargeWithFeeBound (price : Int) (maxFeeBps : Nat) : Result Int := do
  let scaled ← signed 128 (.message "Fee overflow") (price * maxFeeBps)
  signed 128 (.message "Max charge overflow") (price + scaled.tdiv 10000)

def checkMaxCharge (maxChargeAmount price : Int) (maxFeeBps : Nat) : Result Unit :=
  if maxChargeAmount ≠ i128Max then do
    ensure (price ≤ maxChargeAmount) "Charge exceeds max bound"
    let configuredBound ← maxChargeWithFeeBound price maxFeeBps
    ensure (maxChargeAmount ≤ configuredBound) "Max fee bound exceeds configured tolerance"
  else .ok ()

def buildChargeCommitment (env : Env) (subscriptionId : Nat) (maxChargeAmount : Int)
    (salt : BytesN 32) : BytesN 32 :=
  env.sha256 ("SubTrackr:charge-commitment:v1".toUTF8.toList ++ beBytes 8 subscriptionId ++
    beBytes 16 (maxChargeAmount % 2 ^ 128).toNat ++ salt.toList)

def recordMevGasAlert (env : Env) (s : State) (subscriptionId observedGasPrice threshold : Nat) :
    Result State :=
  if threshold = u64Max ∨ observedGasPrice ≤ threshold then .ok s
  else do
    let count ← u64 (s.mevAlertCount.getD 0 + 1)
    let alert : MevAlert := ⟨count, subscriptionId, observedGasPrice, threshold, env.timestamp⟩
    let s := { s with mevAlertCount := some count, mevAlert := put s.mevAlert count alert }
    return s.publish (.mevGasAlert subscriptionId observedGasPrice threshold env.timestamp)

def invoiceCharge (env : Env) (s : State) (subscriptionId : Nat) (period : TimeRange) : Result State :=
  match s.invoiceContract with
  | none => .ok s
  | some invoice => do
    env.invokeContract s invoice "generate_invoice"
      [.address env.storage, .u64 subscriptionId, .timeRange period, .string "GLOBAL", .string ""]
    return s

def storeResumed (s : State) (subscriptionId : Nat) (checked : Subscription × Bool) : State :=
  if checked.2 then { s with subscription := put s.subscription subscriptionId checked.1 } else s

def recordPayment (s : State) (moved : TokenTransfer) (sub : Subscription) : State :=
  { s with
    transfers := s.transfers ++ [moved]
    subscription := put s.subscription moved.subscriptionId sub }

def collect (env : Env) (s : State) (subscriptionId : Nat) (sub : Subscription) (plan : Plan) :
    Result State := do
  let now := env.timestamp
  require (env.tokenTransfer plan.token sub.subscriber plan.merchant plan.price = true)
    (.host "transfer")
  let moved : TokenTransfer := ⟨subscriptionId, plan.token, sub.subscriber, plan.merchant, plan.price⟩
  let nextChargeAt ← u64 (now + plan.interval.seconds)
  let totalPaid ← i128 (sub.totalPaid + plan.price)
  let totalGasSpent ← u64 (sub.totalGasSpent + 100000)
  let chargeCount ← u32 (sub.chargeCount + 1)
  let sub := { sub with lastChargedAt := now, nextChargeAt, totalPaid, totalGasSpent, chargeCount }
  let s := recordPayment s moved sub
  let s ← generateRevenueSchedule s subscriptionId sub.planId plan.price now plan.interval.seconds
  let s ← updateMerchantRevenueBalances s plan.merchant 0 plan.price
  let s := trackMerchantSubscription s plan.merchant subscriptionId
  let s := s.publish (.subscriptionCharged subscriptionId sub.subscriber plan.price 100000 now)
  invoiceCharge env s subscriptionId ⟨sub.lastChargedAt, sub.nextChargeAt⟩

def chargeSubscriptionGuarded (env : Env) (s : State) (subscriptionId : Nat) (maxChargeAmount : Int)
    (observedGasPrice : Nat) (privateMempool revealedCommitment : Bool) : Result State := do
  let sub ← expect (s.subscription subscriptionId) "Subscription not found"
  let s ← limitCalls env s sub.subscriber "charge_subscription"
  env.requireAuth sub.subscriber
  let checked ← checkAndResumeInternal env sub
  let s := storeResumed s subscriptionId checked
  let sub := checked.1
  ensure (sub.status = .active) "Subscription not active"
  ensure (sub.nextChargeAt ≤ env.timestamp) "Payment not yet due"
  let plan ← expect (s.plan sub.planId) "Plan not found"
  let mevConfig := getMevConfig s
  ensure (revealedCommitment = true ∨ plan.price < mevConfig.largeChargeThreshold)
    "Commit reveal required for large charge"
  checkMaxCharge maxChargeAmount plan.price mevConfig.maxFeeBps
  ensure (mevConfig.privateMempoolRequired = true → privateMempool = true)
    "Private mempool route required"
  let s ← recordMevGasAlert env s subscriptionId observedGasPrice mevConfig.gasPriceAlertThreshold
  collect env s subscriptionId sub plan

end SubTrackr.Subscriptions
