import Mathlib.Data.List.Infix
import Mathlib.Data.List.Sort
import Mathlib.Algebra.Order.Ring.Rat

namespace SubTrackr.Fallback

inductive GatewayName where
  | stripe | circle | stellar
  deriving DecidableEq

def GatewayName.text : GatewayName → String
  | .stripe => "stripe"
  | .circle => "circle"
  | .stellar => "stellar"

inductive FallbackStatus where
  | success | failed | timeout | skipped
  deriving DecidableEq

structure FallbackChainEntry where
  gateway : GatewayName
  priority : ℚ
  enabled : Bool
  timeoutMs : ℕ

/-- How long a retry is delayed is not part of it: timers may take any time. -/
structure FallbackChain where
  (id merchantId : String)
  chain : List FallbackChainEntry
  retryAttempts : ℚ
  active : Bool

structure FallbackAttempt where
  (id chainId merchantId : String)
  gateway : GatewayName
  priority : ℚ
  status : FallbackStatus
  error : Option String
  durationMs : ℤ
  amount : ℚ
  (currency customerId : String)
  timestamp : ℤ
  isRetry : Bool
  retryNumber : ℕ

structure FallbackResult where
  success : Bool
  successfulGateway : Option GatewayName
  attempts : List FallbackAttempt
  totalDurationMs : ℤ
  error : Option String

inductive FallbackNotificationType where
  | fallback_triggered | fallback_succeeded | fallback_failed | chain_disabled
  deriving DecidableEq

def FallbackNotificationType.title : FallbackNotificationType → String
  | .fallback_triggered => "Payment Fallback Triggered"
  | .fallback_succeeded => "Fallback Payment Succeeded"
  | .fallback_failed => "All Payment Gateways Failed"
  | .chain_disabled => "Fallback Chain Disabled"

structure FallbackNotification where
  (id merchantId : String)
  type : FallbackNotificationType
  (title message : String)
  attemptIds : List String
  timestamp : ℤ
  sent : Bool

structure PaymentRequest where
  amount : ℚ
  (currency customerId paymentMethodId : String)

def getFallbackChain (chains : List FallbackChain) (merchantId : String) : Option FallbackChain :=
  chains.find? fun c => c.merchantId = merchantId ∧ c.active

inductive Settled where
  | resolved (success : Bool) (error : Option String)
  | threw (message : String)

def Settled.success : Settled → Bool
  | .resolved success _ => success
  | .threw _ => false

structure ExecutorCall where
  gateway : GatewayName
  settled : Option Settled

def ExecutorCall.succeeded (call : ExecutorCall) : Bool := call.settled.any Settled.success

/-- One attempt of `executeWithFallback`: its executor call races its timer. -/
structure Race where
  entry : FallbackChainEntry
  (retry call : ℕ)
  attemptId : String
  attemptStart : ℤ
  rest : List FallbackChainEntry

inductive Phase where
  | called
  | racing (race : Race)
  | raced (race : Race) (outcome : Settled)
  | delaying (entry : FallbackChainEntry) (retry : ℕ) (rest : List FallbackChainEntry)
  | finished (result : FallbackResult)

/-- The attempts and notifications are those that the call adds to the ones that are stored. -/
structure State where
  phase : Phase
  calls : List ExecutorCall
  allAttempts : List FallbackAttempt
  notifications : List FallbackNotification

/-- What a step finds: the time, a random text for an id, and the gateways that an executor is registered for. -/
structure Env where
  now : ℤ
  random : String
  registered : GatewayName → Bool

inductive Event where
  | settle (call : ℕ) (settled : Settled)
  | timer
  | resume
  | delayOver

structure Execution where
  chain : Option FallbackChain
  merchantId : String
  request : PaymentRequest
  startTime : ℤ

namespace Execution

variable (x : Execution) (env : Env) (s : State)

def entries : List FallbackChainEntry :=
  match x.chain with
  | some chain => chain.chain
  | none => [⟨.stripe, 0, true, 5000⟩, ⟨.circle, 1, true, 5000⟩, ⟨.stellar, 2, true, 5000⟩]

def retryAttempts : ℚ :=
  match x.chain with
  | some chain => chain.retryAttempts
  | none => 1

def chainId : String :=
  match x.chain with
  | some chain => chain.id
  | none => "default"

def sortedEntries : List FallbackChainEntry :=
  (x.entries.filter (·.enabled)).insertionSort fun a b => a.priority ≤ b.priority

def createNotification (type : FallbackNotificationType) (message : String) (attemptIds : List String) : State :=
  let notification : FallbackNotification :=
    { id := s!"notif-{env.now}-{env.random}"
      merchantId := x.merchantId
      type := type
      title := type.title
      message := message
      attemptIds := attemptIds
      timestamp := env.now
      sent := false }
  { s with notifications := s.notifications ++ [notification] }

def allFailed : State :=
  let failures := s.allAttempts.map fun a => a.gateway.text ++ ": " ++ a.error.getD "undefined"
  let error := "All gateways failed: " ++ "; ".intercalate failures
  let s := x.createNotification env s .fallback_failed
    s!"Payment failed after trying {s.allAttempts.length} gateway attempts" (s.allAttempts.map (·.id))
  { s with
    phase := .finished
      { success := false
        successfulGateway := none
        attempts := s.allAttempts
        totalDurationMs := env.now - x.startTime
        error := some error } }

def startCall (entry : FallbackChainEntry) (retry : ℕ) (rest : List FallbackChainEntry) : State :=
  let race : Race :=
    { entry := entry
      retry := retry
      call := s.calls.length
      attemptId := s!"attempt-{env.now}-{env.random}"
      attemptStart := env.now
      rest := rest }
  { s with phase := .racing race, calls := s.calls ++ [⟨entry.gateway, none⟩] }

def nextEntry : List FallbackChainEntry → State
  | [] => x.allFailed env s
  | entry :: rest =>
    if env.registered entry.gateway ∧ 0 ≤ x.retryAttempts then startCall env s entry 0 rest else nextEntry rest

def nextRetry (entry : FallbackChainEntry) (retry : ℕ) (rest : List FallbackChainEntry) : State :=
  if (retry : ℚ) ≤ x.retryAttempts then startCall env s entry retry rest else x.nextEntry env s rest

def attempt (race : Race) (status : FallbackStatus) (error : Option String) : FallbackAttempt where
  id := race.attemptId
  chainId := x.chainId
  merchantId := x.merchantId
  gateway := race.entry.gateway
  priority := race.entry.priority
  status := status
  error := error
  durationMs := env.now - race.attemptStart
  amount := x.request.amount
  currency := x.request.currency
  customerId := x.request.customerId
  timestamp := env.now
  isRetry := race.retry > 0
  retryNumber := race.retry

def afterFailure (race : Race) : State :=
  if (race.retry : ℚ) < x.retryAttempts then { s with phase := .delaying race.entry race.retry race.rest }
  else x.nextRetry env s race.entry (race.retry + 1) race.rest

def resume (race : Race) : Settled → State
  | .resolved success error =>
    let attempt := x.attempt env race (if success then .success else .failed) error
    let s := { s with allAttempts := s.allAttempts ++ [attempt] }
    if success then
      let s := if race.retry > 0 then
          x.createNotification env s .fallback_succeeded
            s!"Payment succeeded on {race.entry.gateway.text} after {race.retry} retries" [race.attemptId]
        else s
      { s with
        phase := .finished
          { success := true
            successfulGateway := some race.entry.gateway
            attempts := s.allAttempts
            totalDurationMs := env.now - x.startTime
            error := none } }
    else x.afterFailure env s race
  | .threw message =>
    let status := if "timeout".toList <:+: message.toList then .timeout else .failed
    let attempt := x.attempt env race status (some message)
    x.afterFailure env { s with allAttempts := s.allAttempts ++ [attempt] } race

def start : State := x.nextEntry env ⟨.called, [], [], []⟩ x.sortedEntries

def settle (call : ℕ) (gateway : GatewayName) (settled : Settled) : State :=
  let calls := s.calls.set call ⟨gateway, some settled⟩
  match s.phase with
  | .racing race =>
    if race.call = call then { s with phase := .raced race settled, calls := calls } else { s with calls := calls }
  | _ => { s with calls := calls }

def timedOut (entry : FallbackChainEntry) : Settled := .resolved false (some s!"Gateway timeout after {entry.timeoutMs}ms")

def step (s : State) (action : Env × Event) : Option State :=
  match action.2, s.phase with
  | .settle call settled, _ =>
    match s.calls[call]? with
    | some ⟨gateway, none⟩ => some (settle s call gateway settled)
    | _ => none
  | .timer, .racing race => some { s with phase := .raced race (timedOut race.entry) }
  | .resume, .raced race outcome => some (x.resume action.1 s race outcome)
  | .delayOver, .delaying entry retry rest => some (x.nextRetry action.1 s entry (retry + 1) rest)
  | _, _ => none

end Execution

def executeWithFallback (chains : List FallbackChain) (merchantId : String) (request : PaymentRequest) (startTime : ℤ) :
    Execution := ⟨getFallbackChain chains merchantId, merchantId, request, startTime⟩

end SubTrackr.Fallback
