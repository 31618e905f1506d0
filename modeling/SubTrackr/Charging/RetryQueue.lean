import SubTrackr.Lib.Histories
import SubTrackr.Lib.Store
import SubTrackr.Soroban

namespace SubTrackr.Charging

open Lib Soroban

def defaultMaxRetries : Nat := 3
def defaultBaseDelaySecs : Nat := 60
def defaultMaxDelaySecs : Nat := 3600
def defaultBackoffFactor : Nat := 2
def defaultCircuitBreakerThreshold : Nat := 5
def defaultCircuitBreakerCooldown : Nat := 86400

def jitterModulusSecs : Nat := 300

def maxRetryBatchSize : Nat := 50

/-- The states that the module names; the enumeration of the shared types lacks the last two. -/
inductive ChargeStatus where
  | pending | attempting | completed | failed | retrying | exhausted
  deriving DecidableEq

structure ChargeAttempt where
  (id subscriptionId : Nat)
  status : ChargeStatus
  amount : Int
  (attemptedAt completedAt : Nat)
  errorMessage : String
  (retryCount maxRetries nextRetryAt circuitBreakerUntil : Nat)
  deriving DecidableEq

structure RetryConfig where
  maxRetries : Nat
  baseDelaySecs : Nat
  (maxDelaySecs backoffFactor circuitBreakerThreshold circuitBreakerCooldownSecs : Nat)

inductive GracePeriodStatus where
  | active | recovered | expired
  deriving DecidableEq

structure GracePeriod where
  (subscriptionId startedAt expiresAt : Nat)
  status : GracePeriodStatus
  remindersSent : Nat

structure State where
  count : Option Nat
  attempt : Store Nat ChargeAttempt
  subAttempts : Store Nat (List Nat)
  retryPolicy : Store Nat RetryConfig
  gracePeriod : Store Nat GracePeriod
  retryQueue : Option (List Nat)

def State.empty : State where
  count := none
  attempt := fun _ => none
  subAttempts := fun _ => none
  retryPolicy := fun _ => none
  gracePeriod := fun _ => none
  retryQueue := none

def putAttempt (s : State) (attempt : ChargeAttempt) : State := { s with attempt := put s.attempt attempt.id attempt }

def defaultRetryConfig : RetryConfig where
  maxRetries := defaultMaxRetries
  baseDelaySecs := defaultBaseDelaySecs
  maxDelaySecs := defaultMaxDelaySecs
  backoffFactor := defaultBackoffFactor
  circuitBreakerThreshold := defaultCircuitBreakerThreshold
  circuitBreakerCooldownSecs := defaultCircuitBreakerCooldown

def setRetryPolicy (subscriptionId : Nat) (config : RetryConfig) (s : State) : State :=
  { s with retryPolicy := put s.retryPolicy subscriptionId config }

def getRetryPolicy (s : State) (subscriptionId : Nat) : RetryConfig :=
  (s.retryPolicy subscriptionId).getD defaultRetryConfig

def startCharge (subscriptionId : Nat) (amount : Int) (s : State) : Result (State × ChargeAttempt) := do
  let id ← u64 (s.count.getD 0 + 1)
  let attempt : ChargeAttempt := {
    id, subscriptionId, amount
    status := .pending
    attemptedAt := 0
    completedAt := 0
    errorMessage := ""
    retryCount := 0
    maxRetries := (getRetryPolicy s subscriptionId).maxRetries
    nextRetryAt := 0
    circuitBreakerUntil := 0 }
  let s := putAttempt { s with count := some id } attempt
  let ids := (s.subAttempts subscriptionId).getD [] ++ [id]
  return ({ s with subAttempts := put s.subAttempts subscriptionId ids }, attempt)

/-- A function that updates an attempt it is given stores it, and gives it back. -/
def markCompleted (now : Nat) (attempt : ChargeAttempt) (s : State) : State × ChargeAttempt :=
  let attempt := { attempt with status := .completed, completedAt := now, retryCount := 0, errorMessage := "" }
  (putAttempt s attempt, attempt)

def backoffRounds (config : RetryConfig) : Nat → Nat → Nat
  | 0, delay => delay
  | rounds + 1, delay =>
    let delay := min (delay * config.backoffFactor) u64Max
    if config.maxDelaySecs ≤ delay then config.maxDelaySecs else backoffRounds config rounds delay

def computeBackoffDelay (retryCount : Nat) (config : RetryConfig) : Nat :=
  backoffRounds config (retryCount - 1) config.baseDelaySecs

def computeJitter (subscriptionId retryCount : Nat) : Nat :=
  (subscriptionId ^^^ (retryCount * 2654435761 % 2 ^ 64)) % jitterModulusSecs

def markFailed (now : Nat) (attempt : ChargeAttempt) (errorMessage : String) (config : RetryConfig) (s : State) :
    Result (State × ChargeAttempt × Bool) := do
  let retryCount ← u32 (attempt.retryCount + 1)
  let attempt := { attempt with retryCount, errorMessage }
  if config.maxRetries ≤ retryCount then
    let attempt := { attempt with status := .exhausted }
    return (putAttempt s attempt, attempt, false)
  let baseDelay := computeBackoffDelay retryCount config
  let jitter := computeJitter attempt.subscriptionId retryCount
  let delay := min (min (baseDelay + jitter) u64Max) config.maxDelaySecs
  let nextRetryAt ← u64 (now + delay)
  let attempt := { attempt with nextRetryAt, status := .retrying }
  return (putAttempt s attempt, attempt, true)

def applyCircuitBreaker (now : Nat) (attempt : ChargeAttempt) (config : RetryConfig) (s : State) :
    Result (State × ChargeAttempt) := do
  if attempt.retryCount < config.circuitBreakerThreshold then return (s, attempt)
  let circuitBreakerUntil ← u64 (now + config.circuitBreakerCooldownSecs)
  let attempt := { attempt with circuitBreakerUntil, status := .failed }
  return (putAttempt s attempt, attempt)

def isCircuitBreakerActive (now : Nat) (attempt : ChargeAttempt) : Bool :=
  attempt.circuitBreakerUntil ≠ 0 ∧ now < attempt.circuitBreakerUntil

def isRetryDue (now : Nat) (attempt : ChargeAttempt) : Bool := attempt.status = .retrying ∧ attempt.nextRetryAt ≤ now

def retryCharge (now chargeId : Nat) (config : RetryConfig) (s : State) : State × Option ChargeAttempt :=
  match s.attempt chargeId with
  | none => (s, none)
  | some attempt =>
    if attempt.status ≠ .retrying ∧ attempt.status ≠ .failed then (s, none)
    else if isCircuitBreakerActive now attempt then (s, none)
    else if config.maxRetries ≤ attempt.retryCount then
      let attempt := { attempt with status := .exhausted }
      (putAttempt s attempt, some attempt)
    else
      let attempt := { attempt with status := .attempting, attemptedAt := now, errorMessage := "" }
      (putAttempt s attempt, some attempt)

def abortCharge (attempt : ChargeAttempt) (s : State) : State × ChargeAttempt :=
  let attempt := { attempt with status := .failed, errorMessage := "Charge aborted by user" }
  (putAttempt s attempt, attempt)

def endGracePeriod (status : GracePeriodStatus) (subscriptionId : Nat) (s : State) : State :=
  match s.gracePeriod subscriptionId with
  | some gp =>
    if gp.status ≠ .active then s
    else { s with gracePeriod := put s.gracePeriod subscriptionId { gp with status } }
  | none => s

def recoverGracePeriod (subscriptionId : Nat) (s : State) : State := endGracePeriod .recovered subscriptionId s

def expireGracePeriod (subscriptionId : Nat) (s : State) : State := endGracePeriod .expired subscriptionId s

def getRetryQueue (s : State) : List Nat := s.retryQueue.getD []

def enqueueRetry (chargeId : Nat) (s : State) : State :=
  if chargeId ∈ getRetryQueue s then s else { s with retryQueue := some (getRetryQueue s ++ [chargeId]) }

def dequeueRetry (chargeId : Nat) (s : State) : State :=
  match s.retryQueue with
  | none => s
  | some queue => { s with retryQueue := some (queue.filter (· ≠ chargeId)) }

structure SubscriptionInfo where
  (subscriber merchant token : Address)
  amount : Int
  deriving DecidableEq

structure Transfer where
  chargeId : Nat
  info : SubscriptionInfo
  ok : Bool
  deriving DecidableEq

structure Sweep where
  state : State
  transfers : List Transfer
  completed : Nat

/-- What `process_retry_queue` is given: the time, the subscriptions, the outcomes of the token's transfers by attempt, and
    the configuration. -/
structure SweepEnv where
  now : Nat
  subscriptionInfo : Nat → Option SubscriptionInfo
  transferOk : Nat → Bool
  config : RetryConfig

def settle (env : SweepEnv) (chargeId : Nat) (attempt : ChargeAttempt) (sweep : Sweep) : Result Sweep := do
  if env.transferOk chargeId then
    let (s, attempt) := markCompleted env.now attempt sweep.state
    let s := recoverGracePeriod attempt.subscriptionId s
    return { sweep with state := dequeueRetry chargeId s, completed := sweep.completed + 1 }
  let (s, attempt, rescheduled) ← markFailed env.now attempt "payment_failed" env.config sweep.state
  if rescheduled then
    let (s, _) ← applyCircuitBreaker env.now attempt env.config s
    return { sweep with state := s }
  let s := expireGracePeriod attempt.subscriptionId s
  return { sweep with state := dequeueRetry chargeId s }

def Sweep.round (env : SweepEnv) (sweep : Sweep) (chargeId : Nat) : Result Sweep :=
  let s := sweep.state
  match s.attempt chargeId with
  | none => return { sweep with state := dequeueRetry chargeId s }
  | some attempt =>
    if attempt.status = .retrying ∧ env.now < attempt.nextRetryAt then return sweep
    else if isCircuitBreakerActive env.now attempt then return sweep
    else if ¬ (attempt.status = .retrying ∨ attempt.status = .failed) then
      return { sweep with state := dequeueRetry chargeId s }
    else
      match env.subscriptionInfo attempt.subscriptionId with
      | none =>
        let attempt := { attempt with status := .failed, errorMessage := "Subscription not found" }
        return { sweep with state := dequeueRetry chargeId (putAttempt s attempt) }
      | some info =>
        let attempt := { attempt with status := .attempting, attemptedAt := env.now, errorMessage := "" }
        let transfer : Transfer := ⟨chargeId, info, env.transferOk chargeId⟩
        settle env chargeId attempt
          { sweep with state := putAttempt s attempt, transfers := sweep.transfers ++ [transfer] }

def processRetryQueue (env : SweepEnv) (s : State) : Result Sweep :=
  ((getRetryQueue s).take maxRetryBatchSize).foldlM (Sweep.round env) ⟨s, [], 0⟩

inductive Call where
  | setRetryPolicy (subscriptionId : Nat) (config : RetryConfig)
  | startCharge (subscriptionId : Nat) (amount : Int)
  | enqueueRetry (chargeId : Nat)
  | processRetryQueue (env : SweepEnv)
  | retryCharge (now chargeId : Nat) (config : RetryConfig)
  | markFailed (now : Nat) (attempt : ChargeAttempt) (errorMessage : String) (config : RetryConfig)
  | applyCircuitBreaker (now : Nat) (attempt : ChargeAttempt) (config : RetryConfig)
  | markCompleted (now : Nat) (attempt : ChargeAttempt)
  | abortCharge (attempt : ChargeAttempt)

def exec (s : State) : Call → Result (State × List Transfer)
  | .setRetryPolicy subscriptionId config => return (setRetryPolicy subscriptionId config s, [])
  | .startCharge subscriptionId amount => do
    let (s, _) ← startCharge subscriptionId amount s
    return (s, [])
  | .enqueueRetry chargeId => return (enqueueRetry chargeId s, [])
  | .processRetryQueue env => do
    let sweep ← processRetryQueue env s
    return (sweep.state, sweep.transfers)
  | .retryCharge now chargeId config => return ((retryCharge now chargeId config s).1, [])
  | .markFailed now attempt errorMessage config => do
    let (s, _) ← markFailed now attempt errorMessage config s
    return (s, [])
  | .applyCircuitBreaker now attempt config => do
    let (s, _) ← applyCircuitBreaker now attempt config s
    return (s, [])
  | .markCompleted now attempt => return ((markCompleted now attempt s).1, [])
  | .abortCharge attempt => return ((abortCharge attempt s).1, [])

end SubTrackr.Charging
