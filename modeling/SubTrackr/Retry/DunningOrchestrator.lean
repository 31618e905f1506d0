import Mathlib.Data.Rat.Floor
import SubTrackr.Lib.Histories
import SubTrackr.Lib.InsertionMap
import SubTrackr.Lib.Store

namespace SubTrackr.Retry

open Lib

def ONE_HOUR_MS : ℚ := 3600000

def MAX_RETRIES_CAP : ℚ := 10

def MIN_RETRY_DELAY_HOURS : ℚ := 1 / 4

def SPLIT_THRESHOLD_AMOUNT : ℚ := 500

inductive DeclineCode where
  | insufficient_funds | card_expired | card_lost_stolen | do_not_honor | authentication_required | generic_decline
  | network_error | processing_error
  deriving DecidableEq

inductive OutreachChannel where
  | email | sms | push
  deriving DecidableEq

structure RetryPolicy where
  maxRetries : ℚ
  baseDelayHours : ℚ
  backoffMultiplier : ℚ
  (maxDelayHours circuitBreakerThreshold circuitBreakerCooldownHours jitterHours : ℚ)

structure PolicyUpdates where
  maxRetries : Option ℚ := none
  baseDelayHours : Option ℚ := none
  backoffMultiplier : Option ℚ := none
  maxDelayHours : Option ℚ := none
  circuitBreakerThreshold : Option ℚ := none
  circuitBreakerCooldownHours : Option ℚ := none
  jitterHours : Option ℚ := none

/-- The texts of a decision; a number stands for the text that the template makes of it. -/
inductive Reason where
  | profile (text : String)
  /-- `Invoice ${invoiceId} not registered` -/
  | notRegistered (invoiceId : String)
  /-- `Max retries (${maxAttempts}) reached` -/
  | maxRetriesReached (maxAttempts : ℚ)
  /-- `Circuit breaker open — resume after ${hoursLeft.toFixed(1)} h` -/
  | circuitBreakerOpen (hoursLeft : ℚ)

structure RetryDecision where
  shouldRetry : Bool
  delayHours : ℚ
  outreachChannel : OutreachChannel
  reason : Reason
  escalatePriority : Bool
  splitAmount : Option ℤ

structure SuccessDataPoint where
  (utcHour utcDayOfWeek : ℕ)

structure RetryRecord where
  (invoiceId subscriptionId : String)
  amount : ℚ
  currency : String
  attempts : ℕ
  maxAttempts : ℚ
  lastDeclineCode : Option DeclineCode
  cardUpdaterTriggered : Bool
  circuitBreakerUntil : Option ℚ
  successHistory : List SuccessDataPoint
  (createdAt updatedAt : ℤ)

structure CircuitBreakerStatus where
  isOpen : Bool
  opensUntil : Option ℚ

structure DeclineProfile where
  shouldRetry : Bool
  delayHours : ℚ
  outreachChannel : OutreachChannel
  reason : String
  escalatePriority : Bool

def DECLINE_PROFILES : DeclineCode → DeclineProfile
  | .insufficient_funds => ⟨true, 24, .push, "Insufficient funds — retry after 24 h", false⟩
  | .card_expired => ⟨true, 1, .email, "Card expired — trigger card updater, retry after 1 h", false⟩
  | .card_lost_stolen => ⟨false, 0, .email, "Card lost/stolen — do not retry, contact subscriber", true⟩
  | .do_not_honor => ⟨true, 48, .email, "Do not honor — retry after 48 h", false⟩
  | .authentication_required => ⟨true, 1 / 2, .push, "Authentication required — prompt subscriber via push", false⟩
  | .generic_decline => ⟨true, 6, .email, "Generic decline — retry after 6 h", false⟩
  | .network_error => ⟨true, 1 / 2, .email, "Network error — retry after 30 min", false⟩
  | .processing_error => ⟨true, 1, .email, "Processing error — retry after 1 h", false⟩

def DEFAULT_RETRY_POLICY : RetryPolicy where
  maxRetries := 4
  baseDelayHours := 1
  backoffMultiplier := 2
  maxDelayHours := 72
  circuitBreakerThreshold := 5
  circuitBreakerCooldownHours := 24
  jitterHours := 1 / 2

structure Env where
  now : ℤ
  random : ℚ

def Env.utcHours (env : Env) : ℕ := (env.now / 3600000 % 24).toNat

def Env.utcDay (env : Env) : ℕ := ((env.now / 86400000 + 4) % 7).toNat

structure IntelligentRetryScheduler where
  records : Store String RetryRecord
  policies : Store String RetryPolicy

namespace IntelligentRetryScheduler

variable (scheduler : IntelligentRetryScheduler)

def getPlanPolicy (planId : String) : RetryPolicy := (scheduler.policies planId).getD DEFAULT_RETRY_POLICY

def mergedPolicy (planId : String) (policy : PolicyUpdates) : RetryPolicy :=
  let stored := scheduler.getPlanPolicy planId
  { maxRetries := min (policy.maxRetries.getD stored.maxRetries) MAX_RETRIES_CAP
    baseDelayHours := policy.baseDelayHours.getD stored.baseDelayHours
    backoffMultiplier := policy.backoffMultiplier.getD stored.backoffMultiplier
    maxDelayHours := policy.maxDelayHours.getD stored.maxDelayHours
    circuitBreakerThreshold := policy.circuitBreakerThreshold.getD stored.circuitBreakerThreshold
    circuitBreakerCooldownHours := policy.circuitBreakerCooldownHours.getD stored.circuitBreakerCooldownHours
    jitterHours := policy.jitterHours.getD stored.jitterHours }

def setPlanPolicy (planId : String) (policy : PolicyUpdates) : IntelligentRetryScheduler :=
  { scheduler with policies := put scheduler.policies planId (scheduler.mergedPolicy planId policy) }

def newRecord (env : Env) (invoiceId subscriptionId planId : String) (amount : ℚ) (currency : String) : RetryRecord where
  invoiceId := invoiceId
  subscriptionId := subscriptionId
  amount := amount
  currency := currency
  attempts := 0
  maxAttempts := (scheduler.getPlanPolicy planId).maxRetries
  lastDeclineCode := none
  cardUpdaterTriggered := false
  circuitBreakerUntil := none
  successHistory := []
  createdAt := env.now
  updatedAt := env.now

def saveRecord (record : RetryRecord) : IntelligentRetryScheduler :=
  { scheduler with records := put scheduler.records record.invoiceId record }

def register (env : Env) (invoiceId subscriptionId planId : String) (amount : ℚ) (currency : String) :
    IntelligentRetryScheduler :=
  scheduler.saveRecord (scheduler.newRecord env invoiceId subscriptionId planId amount currency)

end IntelligentRetryScheduler

def applyExponentialBackoff (baseHours : ℚ) (attempts : ℕ) (policy : RetryPolicy) : ℚ :=
  if attempts = 0 then baseHours else min (baseHours * policy.backoffMultiplier ^ attempts) policy.maxDelayHours

def applyHistoricalShift (env : Env) (delayHours : ℚ) (history : List SuccessDataPoint) : ℚ :=
  if history = [] then delayHours
  else
    let counts := (List.range 24).map fun hour => history.countP (·.utcHour = hour)
    let bestHour := counts.idxOf (counts.foldl max 0)
    let hoursUntilBest := (bestHour + 24 - env.utcHours) % 24
    if |(hoursUntilBest : ℚ) - delayHours| ≤ 2 then
      if 0 < hoursUntilBest then hoursUntilBest else delayHours
    else delayHours

def applyJitter (env : Env) (delayHours jitterHours : ℚ) : ℚ :=
  if jitterHours ≤ 0 then delayHours
  else max (delayHours + (env.random - 1 / 2) * jitterHours) MIN_RETRY_DELAY_HOURS

def retryDelay (env : Env) (profile : DeclineProfile) (record : RetryRecord) (policy : RetryPolicy) : ℚ :=
  let delayHours := applyExponentialBackoff profile.delayHours record.attempts policy
  let delayHours := applyHistoricalShift env delayHours record.successHistory
  let delayHours := applyJitter env delayHours policy.jitterHours
  min (max delayHours MIN_RETRY_DELAY_HOURS) policy.maxDelayHours

def RetryRecord.opensUntil (record : RetryRecord) (env : Env) (policy : RetryPolicy) : ℚ :=
  record.circuitBreakerUntil.getD (env.now + policy.circuitBreakerCooldownHours * ONE_HOUR_MS)

def getCircuitBreakerStatus (env : Env) (record : RetryRecord) (policy : RetryPolicy) : CircuitBreakerStatus × RetryRecord :=
  if record.attempts < policy.circuitBreakerThreshold then (⟨false, none⟩, record)
  else
    let opensUntil := record.opensUntil env policy
    if env.now < opensUntil then (⟨true, some opensUntil⟩, { record with circuitBreakerUntil := some opensUntil })
    else (⟨false, none⟩, { record with circuitBreakerUntil := none, attempts := 0 })

def RetryRecord.retried (record : RetryRecord) (env : Env) (declineCode : DeclineCode) : RetryRecord :=
  { record with
    cardUpdaterTriggered := record.cardUpdaterTriggered || declineCode = .card_expired
    attempts := record.attempts + 1
    lastDeclineCode := some declineCode
    updatedAt := env.now }

def IntelligentRetryScheduler.decideRetry (scheduler : IntelligentRetryScheduler) (env : Env) (invoiceId : String)
    (declineCode : DeclineCode) (planId : String) : IntelligentRetryScheduler × RetryDecision :=
  match scheduler.records invoiceId with
  | none => (scheduler, ⟨false, 0, .email, .notRegistered invoiceId, false, none⟩)
  | some record =>
    let policy := scheduler.getPlanPolicy planId
    let profile := DECLINE_PROFILES declineCode
    if !profile.shouldRetry then
      (scheduler, ⟨false, profile.delayHours, profile.outreachChannel, .profile profile.reason, profile.escalatePriority, none⟩)
    else if record.maxAttempts ≤ record.attempts then
      (scheduler, ⟨false, 0, .sms, .maxRetriesReached record.maxAttempts, true, none⟩)
    else
      let (cbStatus, record) := getCircuitBreakerStatus env record policy
      if cbStatus.isOpen then
        -- a time of 0 counts as none
        let hoursLeft := match cbStatus.opensUntil.filter (· ≠ 0) with
          | some opensUntil => (opensUntil - env.now) / ONE_HOUR_MS
          | none => policy.circuitBreakerCooldownHours
        (scheduler.saveRecord record, ⟨false, hoursLeft, .email, .circuitBreakerOpen hoursLeft, false, none⟩)
      else
        let splitAmount := if SPLIT_THRESHOLD_AMOUNT < record.amount ∧ record.attempts ≤ 1
          then some ⌊record.amount / 2 + 1 / 2⌋ else none
        (scheduler.saveRecord (record.retried env declineCode),
          ⟨true, retryDelay env profile record policy, profile.outreachChannel, .profile profile.reason,
            profile.escalatePriority, splitAmount⟩)

def IntelligentRetryScheduler.recordSuccess (scheduler : IntelligentRetryScheduler) (env : Env) (invoiceId : String) :
    IntelligentRetryScheduler :=
  match scheduler.records invoiceId with
  | none => scheduler
  | some record => scheduler.saveRecord { record with
      successHistory := record.successHistory ++ [⟨env.utcHours, env.utcDay⟩]
      updatedAt := env.now }

structure GracePeriodConfig where
  durationHours : ℚ
  sendReminders : Bool
  reminderIntervalHours : ℚ

def DEFAULT_GRACE_PERIOD_CONFIG : GracePeriodConfig := ⟨72, true, 24⟩

inductive GracePeriodStatus where
  | active | expired | recovered
  deriving DecidableEq

structure GracePeriod where
  (invoiceId subscriptionId : String)
  (startedAt expiresAt : ℚ)
  status : GracePeriodStatus
  remindersSent : ℕ
  lastReminderAt : Option ℚ

def GracePeriod.due (gp : GracePeriod) (now : ℚ) : Bool := gp.status = .active ∧ gp.expiresAt ≤ now

structure OutreachPayload where
  (subscriptionId invoiceId : String)
  channel : OutreachChannel
  message : Reason
  escalate : Bool
  splitAmount : Option ℤ

structure ProcessFailedInput where
  (invoiceId subscriptionId planId : String)
  amount : ℚ
  currency : String
  declineCode : DeclineCode

structure ProcessFailedResult where
  decision : RetryDecision
  gracePeriod : Option GracePeriod
  outreachSent : Bool

structure DunningOrchestrator where
  scheduler : IntelligentRetryScheduler
  gracePeriodConfigs : Store String GracePeriodConfig
  defaultGracePeriod : GracePeriodConfig
  gracePeriods : InsertionMap String GracePeriod

namespace DunningOrchestrator

def new (gracePeriodConfigs : Store String GracePeriodConfig) (defaultGracePeriod : GracePeriodConfig) :
    DunningOrchestrator where
  scheduler := ⟨fun _ => none, fun _ => none⟩
  gracePeriodConfigs := gracePeriodConfigs
  defaultGracePeriod := defaultGracePeriod
  gracePeriods := ∅

variable (orchestrator : DunningOrchestrator)

def setPlanPolicy (planId : String) (policy : PolicyUpdates) : DunningOrchestrator :=
  { orchestrator with scheduler := orchestrator.scheduler.setPlanPolicy planId policy }

def setGracePeriodConfig (planId : String) (config : GracePeriodConfig) : DunningOrchestrator :=
  { orchestrator with gracePeriodConfigs := put orchestrator.gracePeriodConfigs planId config }

def upsertGracePeriod (env : Env) (invoiceId subscriptionId planId : String) (decision : RetryDecision) :
    DunningOrchestrator × Option GracePeriod :=
  if !decision.shouldRetry && !decision.escalatePriority then (orchestrator, none)
  else
    match orchestrator.gracePeriods.get invoiceId with
    | some existing => (orchestrator, some existing)
    | none =>
      let config := (orchestrator.gracePeriodConfigs planId).getD orchestrator.defaultGracePeriod
      let gracePeriod : GracePeriod :=
        ⟨invoiceId, subscriptionId, env.now, env.now + config.durationHours * ONE_HOUR_MS, .active, 0, none⟩
      ({ orchestrator with gracePeriods := orchestrator.gracePeriods.set invoiceId gracePeriod }, some gracePeriod)

def registered (env : Env) (input : ProcessFailedInput) : IntelligentRetryScheduler :=
  match orchestrator.scheduler.records input.invoiceId with
  | some _ => orchestrator.scheduler
  | none =>
    orchestrator.scheduler.register env input.invoiceId input.subscriptionId input.planId input.amount input.currency

/-- The notification that is dispatched, if any, is part of what the call gives; `delivered` says whether the dispatcher
    takes it. -/
def processFailed (env : Env) (delivered : Bool) (input : ProcessFailedInput) :
    DunningOrchestrator × ProcessFailedResult × Option OutreachPayload :=
  let (scheduler, decision) :=
    (orchestrator.registered env input).decideRetry env input.invoiceId input.declineCode input.planId
  let (orchestrator, gracePeriod) := { orchestrator with scheduler }.upsertGracePeriod env input.invoiceId
    input.subscriptionId input.planId decision
  let shouldNotify := decision.shouldRetry || decision.escalatePriority || gracePeriod.any (·.status = .active)
  let payload : OutreachPayload := ⟨input.subscriptionId, input.invoiceId, decision.outreachChannel, decision.reason,
    decision.escalatePriority, decision.splitAmount⟩
  (orchestrator, ⟨decision, gracePeriod, shouldNotify && delivered⟩, if shouldNotify then some payload else none)

def processSuccess (env : Env) (invoiceId : String) : DunningOrchestrator :=
  let scheduler := orchestrator.scheduler.recordSuccess env invoiceId
  match orchestrator.gracePeriods.get invoiceId with
  | some gp =>
    { orchestrator with
      scheduler, gracePeriods := orchestrator.gracePeriods.set invoiceId { gp with status := .recovered } }
  | none => { orchestrator with scheduler }

def sweepExpiredGracePeriods (now : ℚ) : DunningOrchestrator × List String :=
  let (gracePeriods, expired) := orchestrator.gracePeriods.entries.foldl (fun (gracePeriods, expired) (id, gp) =>
    if gp.due now then (gracePeriods.set id { gp with status := .expired }, expired ++ [id])
    else (gracePeriods, expired)) (orchestrator.gracePeriods, [])
  ({ orchestrator with gracePeriods }, expired)

end DunningOrchestrator

end SubTrackr.Retry
