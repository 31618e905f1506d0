import SubTrackr.Dunning.Engine

namespace SubTrackr.Dunning

open List Lib

inductive FailureType
  | insufficient_funds
  | card_declined
  | expired_card
  | network_error
  | processing_error
  | auth_required
  | unknown
  deriving DecidableEq

inductive BackoffPolicy
  | fixed
  | linear
  | exponential
  | exponential_jitter
  deriving DecidableEq

structure RetryScheduleConfig where
  failureType : FailureType
  baseDelayHours : ℚ
  maxRetries : ℤ
  (backoffMultiplier maxDelayHours : ℚ)
  backoffPolicy : BackoffPolicy
  jitterRatio : ℚ
  retryable : Bool

def FAILURE_TYPES : List FailureType :=
  [.insufficient_funds, .card_declined, .expired_card, .network_error, .processing_error, .auth_required, .unknown]

def UNKNOWN_RETRY_SCHEDULE : RetryScheduleConfig := ⟨.unknown, 1, 3, 2, 24, .exponential, 0, true⟩

def DEFAULT_RETRY_SCHEDULES : List RetryScheduleConfig :=
  [⟨.insufficient_funds, 1, 5, 2, 48, .exponential_jitter, 1 / 5, true⟩,
    ⟨.card_declined, 2, 3, 3, 72, .exponential, 0, true⟩,
    ⟨.expired_card, 24, 2, 1, 24, .fixed, 0, true⟩,
    ⟨.network_error, 1 / 2, 6, 3 / 2, 12, .exponential_jitter, 3 / 10, true⟩,
    ⟨.processing_error, 1, 4, 2, 24, .exponential, 0, true⟩,
    ⟨.auth_required, 1 / 4, 3, 1, 1, .linear, 0, true⟩,
    UNKNOWN_RETRY_SCHEDULE]

def FAILURE_TYPE_TO_REASON : FailureType → FailureReason
  | .insufficient_funds => .insufficient_funds
  | .card_declined => .default
  | .expired_card => .expired_card
  | .network_error => .network
  | .processing_error => .default
  | .auth_required => .default
  | .unknown => .default

structure RetryStrategy where
  stages : List DunningStageConfig
  communicationChannels : List CommunicationChannel

def FALLBACK_STRATEGY : RetryStrategy := ⟨DEFAULT_DUNNING_STAGES, [.email, .push]⟩

def RetryStrategy.stagesInForce (strategy : RetryStrategy) : List DunningStageConfig :=
  if strategy.stages.isEmpty then DEFAULT_DUNNING_STAGES else strategy.stages

structure Variant where
  id : String
  weight : ℚ
  strategy : RetryStrategy

structure ABTestConfig where
  enabled : Bool
  variants : List Variant

structure DunningConfiguration where
  planId : String
  defaultStrategy : RetryStrategy
  strategies : FailureReason → Option RetryStrategy
  abTestConfig : Option ABTestConfig

structure DunningCommunicationTemplate where
  (id subject : String)

structure RetryHistoryRecord where
  (subscriptionId merchantId : String)
  failureType : FailureType
  attempt : ℕ
  success : Bool
  (timestamp delayHours : ℚ)

structure Entries where
  find : Store String DunningEntry
  keyed : ∀ id entry, find id = some entry → entry.subscriptionId = id

namespace Entries

def set (entries : Entries) (entry : DunningEntry) : Entries where
  find := put entries.find entry.subscriptionId entry
  keyed := by
    intro id stored found
    rcases (put_eq_some ..).mp found with ⟨rfl, rfl⟩ | ⟨-, found⟩
    · rfl
    · exact entries.keyed id stored found

def delete (entries : Entries) (subscriptionId : String) : Entries where
  find := remove entries.find subscriptionId
  keyed := by
    intro id stored found
    exact entries.keyed id stored ((remove_eq_some ..).mp found).2

end Entries

structure DunningService where
  entries : Entries
  configurations : Store String DunningConfiguration
  communicationLog : Store String (List DunningCommunication)
  templates : List DunningCommunicationTemplate
  retrySchedules : List RetryScheduleConfig
  retryHistory : List RetryHistoryRecord
  recoveredEntries : List DunningEntry
  progressiveEngine : ProgressiveDunningEngine

structure Drawn where
  (now random : ℚ)
  (entryId eventId communicationId : String)

def pickVariant : ℚ → List Variant → Option String
  | _, [] => none
  | r, v :: rest => if r - v.weight ≤ 0 then some v.id else pickVariant (r - v.weight) rest

namespace DunningService

def getStrategy (service : DunningService) (planId : String) (failureReason : FailureReason)
    (abTestVariant : Option String) : RetryStrategy :=
  match service.configurations planId with
  | none => FALLBACK_STRATEGY
  | some config =>
    let variant := (abTestVariant.filter (· ≠ "")).bind fun id =>
      (config.abTestConfig.filter fun test => test.enabled).bind fun test => test.variants.find? fun v => v.id = id
    (variant.map Variant.strategy).getD ((config.strategies failureReason).getD config.defaultStrategy)

def strategyFor (service : DunningService) (entry : DunningEntry) : RetryStrategy :=
  service.getStrategy entry.planId entry.failureReason entry.abTestVariant

def getRetrySchedule (service : DunningService) (failureType : FailureType) : RetryScheduleConfig :=
  ((service.retrySchedules.find? fun s => s.failureType = failureType).or
    (service.retrySchedules.find? fun s => s.failureType = .unknown)).getD UNKNOWN_RETRY_SCHEDULE

def calculateRetryDelay (service : DunningService) (failureType : FailureType) (attemptNumber : ℕ) (random : ℚ) : ℚ :=
  let schedule := service.getRetrySchedule failureType
  let attempt := max 1 attemptNumber
  let delay :=
    match schedule.backoffPolicy with
    | .fixed => schedule.baseDelayHours
    | .linear => schedule.baseDelayHours * attempt
    | .exponential | .exponential_jitter => schedule.baseDelayHours * schedule.backoffMultiplier ^ (attempt - 1)
  let capped := min delay schedule.maxDelayHours
  if schedule.backoffPolicy = .exponential_jitter ∧ 0 < schedule.jitterRatio then
    min (max (capped + (random * 2 - 1) * (capped * schedule.jitterRatio)) 0) schedule.maxDelayHours
  else capped

def startDunning (service : DunningService) (subscriptionId subscriberId merchantId planId : String)
    (failureReason : FailureReason) (drawn : Drawn) : DunningService × DunningEntry :=
  match service.entries.find subscriptionId with
  | some existing => (service, existing)
  | none =>
    let test := ((service.configurations planId).bind DunningConfiguration.abTestConfig).filter fun test =>
      test.enabled && !test.variants.isEmpty
    let abTestVariant := test.bind fun test =>
      pickVariant (drawn.random * (test.variants.map Variant.weight).sum) test.variants
    let strategy := service.getStrategy planId failureReason abTestVariant
    let firstStage := strategy.stages.head?.getD ⟨.retry, 1, 3, "payment_retry"⟩
    let entry : DunningEntry :=
      { id := drawn.entryId
        subscriptionId
        subscriberId
        merchantId
        planId
        failureReason
        abTestVariant
        currentStage := firstStage.stage
        failedAttempts := 0
        totalFailedCharges := 0
        firstFailureAt := drawn.now
        lastFailureAt := drawn.now
        lastAttemptAt := drawn.now
        nextActionAt := drawn.now + firstStage.delayHours * ONE_HOUR_MS
        isPaused := false
        communicationLog := []
        createdAt := drawn.now
        updatedAt := drawn.now }
    ({ service with
        entries := service.entries.set entry
        communicationLog := put service.communicationLog subscriptionId []
        progressiveEngine := service.progressiveEngine.trackStageEntry entry drawn.now }, entry)

def sendCommunication (service : DunningService) (entry : DunningEntry) (stageConfig : DunningStageConfig)
    (strategy : RetryStrategy) (drawn : Drawn) : DunningService × DunningEntry :=
  let template := service.templates.find? fun t => t.id = stageConfig.templateId
  let comm : DunningCommunication :=
    { id := drawn.communicationId
      stage := stageConfig.stage
      channel := strategy.communicationChannels.head?.getD .push
      templateId := stageConfig.templateId
      sentAt := drawn.now
      status := .sent
      metadata :=
        [("subscription_id", entry.subscriptionId),
          ("template_subject", (template.map DunningCommunicationTemplate.subject).getD "")] }
  ({ service with
      communicationLog :=
        put service.communicationLog entry.subscriptionId ((service.communicationLog entry.subscriptionId).getD [] ++ [comm]) },
    { entry with communicationLog := entry.communicationLog ++ [comm] })

def sendFor (service : DunningService) (entry : DunningEntry) (stageConfig : Option DunningStageConfig)
    (strategy : RetryStrategy) (drawn : Drawn) : DunningService × DunningEntry :=
  match stageConfig with
  | none => (service, entry)
  | some stageConfig => service.sendCommunication entry stageConfig strategy drawn

def progressiveEscalate (service : DunningService) (subscriptionId : String) (now : ℚ) (drawn : Drawn) :
    Except String (DunningService × Option (DunningEntry × EscalationEvent)) :=
  match (service.entries.find subscriptionId).filter fun e => !e.isPaused with
  | none => .ok (service, none)
  | some entry =>
    match service.progressiveEngine.findMatchingRule entry now with
    | none => .ok (service, none)
    | some rule => do
      let (engine, updated, event) ← service.progressiveEngine.applyEscalation entry rule drawn.eventId drawn.now
      let strategy := service.strategyFor updated
      let stageConfig := (strategy.stages.find? fun s => s.stage = updated.currentStage).or
        (DEFAULT_DUNNING_STAGES.find? fun s => s.stage = updated.currentStage)
      let (service, updated) := { service with progressiveEngine := engine }.sendFor updated stageConfig strategy drawn
      .ok ({ service with entries := service.entries.set updated }, some (updated, event))

def recordFailedCharge (service : DunningService) (subscriptionId : String) (failureType : FailureType) (drawn : Drawn) :
    DunningService × Option DunningEntry :=
  match (service.entries.find subscriptionId).filter fun e => !e.isPaused with
  | none => (service, none)
  | some entry =>
    let strategy := service.strategyFor entry
    let schedule := service.getRetrySchedule failureType
    let now := drawn.now
    let failed :=
      { entry with
        failedAttempts := entry.failedAttempts + 1
        totalFailedCharges := entry.totalFailedCharges + 1
        lastFailureAt := now
        lastAttemptAt := now
        updatedAt := now }
    let stages := strategy.stagesInForce
    let currentStageIndex := stages.findIdx? fun s => s.stage = entry.currentStage
    let stageConfig := currentStageIndex.bind fun i => stages[i]?
    let budgetExhausted := !schedule.retryable || schedule.maxRetries ≤ failed.failedAttempts ||
      stageConfig.any fun s => s.maxAttempts ≤ failed.failedAttempts
    let moveTo (stage : DunningStage) (delayHours : ℚ) (stageConfig : Option DunningStageConfig) :=
      let moved :=
        { failed with currentStage := stage, failedAttempts := 0, nextActionAt := now + delayHours * ONE_HOUR_MS }
      let tracked := { service with progressiveEngine := service.progressiveEngine.trackStageEntry moved now }
      (tracked.sendFor moved stageConfig strategy drawn, delayHours)
    let ((service, entry), delayHours) :=
      if budgetExhausted then
        match currentStageIndex.bind fun i => stages[i + 1]? with
        | some nextStage => moveTo nextStage.stage nextStage.delayHours (some nextStage)
        | none =>
          moveTo .cancel 24 ((stages.find? fun s => s.stage = .cancel).or
            (DEFAULT_DUNNING_STAGES.find? fun s => s.stage = .cancel))
      else
        let delayHours := service.calculateRetryDelay failureType failed.failedAttempts drawn.random
        ((service, { failed with nextActionAt := now + delayHours * ONE_HOUR_MS }), delayHours)
    ({ service with
        retryHistory := service.retryHistory ++
          [⟨subscriptionId, entry.merchantId, failureType, entry.totalFailedCharges, false, now, delayHours⟩]
        entries := service.entries.set entry },
      some entry)

def recordSuccessfulCharge (service : DunningService) (subscriptionId : String) (drawn : Drawn) :
    DunningService × Option DunningEntry :=
  match service.entries.find subscriptionId with
  | none => (service, none)
  | some entry =>
    let failureType := (FAILURE_TYPES.find? fun t => FAILURE_TYPE_TO_REASON t = entry.failureReason).getD .unknown
    let recovered := { entry with updatedAt := drawn.now }
    ({ service with
        retryHistory := service.retryHistory ++
          [⟨subscriptionId, entry.merchantId, failureType, entry.totalFailedCharges + 1, true, drawn.now, 0⟩]
        progressiveEngine := service.progressiveEngine.recordRecovery entry drawn.now
        recoveredEntries := service.recoveredEntries ++ [recovered]
        entries := service.entries.delete subscriptionId },
      some recovered)

def pauseDunning (service : DunningService) (subscriptionId : String) (drawn : Drawn) : DunningService × Option DunningEntry :=
  match service.entries.find subscriptionId with
  | none => (service, none)
  | some entry =>
    let paused := { entry with isPaused := true, updatedAt := drawn.now }
    ({ service with entries := service.entries.set paused }, some paused)

def resumeDunning (service : DunningService) (subscriptionId : String) (drawn : Drawn) : DunningService × Option DunningEntry :=
  match service.entries.find subscriptionId with
  | none => (service, none)
  | some entry =>
    let stageConfig := (service.strategyFor entry).stages.find? fun s => s.stage = entry.currentStage
    let resumed :=
      { entry with
        isPaused := false
        nextActionAt := drawn.now + ((stageConfig.map DunningStageConfig.delayHours).getD 24) * ONE_HOUR_MS
        updatedAt := drawn.now }
    ({ service with entries := service.entries.set resumed }, some resumed)

end DunningService

def DunningEntry.plan (entry : DunningEntry) : String × FailureReason × Option String :=
  (entry.planId, entry.failureReason, entry.abTestVariant)

structure Updated (service service' : DunningService) (entry entry' : DunningEntry) : Prop where
  configurations : service'.configurations = service.configurations
  retrySchedules : service'.retrySchedules = service.retrySchedules
  policies : service'.progressiveEngine.policies = service.progressiveEngine.policies
  entries : service'.entries = service.entries.set entry'
  subscriptionId : entry'.subscriptionId = entry.subscriptionId
  plan : entry'.plan = entry.plan

def DunningService.escalationBooks (service : DunningService) : List EscalationEvent × Store String ℕ :=
  (service.progressiveEngine.events, service.progressiveEngine.escalationCounts)

namespace ProgressiveDunningEngine

variable {engine : ProgressiveDunningEngine} {entry : DunningEntry} {now : ℚ} {rule : EscalationRule}

def allowance (engine : ProgressiveDunningEngine) (planId : String) : ℤ :=
  ((engine.policyFor planId).map fun policy => policy.maxEscalations).getD 0

theorem allowance_nonneg (engine : ProgressiveDunningEngine) (planId : String) : 0 ≤ engine.allowance planId := by
  unfold allowance
  cases engine.policyFor planId with
  | none => exact le_refl _
  | some policy =>
    have pos := policy.atLeastOne
    show 0 ≤ policy.maxEscalations
    omega

theorem findMatchingRule_spec (matching : engine.findMatchingRule entry now = some rule) :
    rule.fromStage = entry.currentStage ∧ isForwardEscalation rule.fromStage rule.toStage = true ∧
      engine.escalationsSoFar entry.subscriptionId < engine.allowance entry.planId := by
  unfold findMatchingRule at matching
  split at matching
  · cases matching
  · split at matching
    · cases matching
    · rename_i policy found
      split at matching
      · cases matching
      · rename_i left
        have chosen := mem_of_head? matching
        unfold byPriority at chosen
        rw [mem_insertionSort, mem_filter, mem_filter, mem_filter] at chosen
        obtain ⟨⟨⟨-, same⟩, forward⟩, -⟩ := chosen
        obtain ⟨known, -⟩ := Option.filter_eq_some_iff.mp found
        refine ⟨of_decide_eq_true same, forward, ?_⟩
        unfold allowance
        rw [known]
        show _ < policy.maxEscalations
        omega

theorem applyEscalation_spec (matching : engine.findMatchingRule entry now = some rule) (eventId : String) (time : ℚ) :
    ∃ engine' entry' event, engine.applyEscalation entry rule eventId time = .ok (engine', entry', event) ∧
      engine'.policies = engine.policies ∧ engine'.events = engine.events ++ [event] ∧
      engine'.escalationCounts =
        put engine.escalationCounts entry.subscriptionId (engine.escalationsSoFar entry.subscriptionId + 1) ∧
      event.subscriptionId = entry.subscriptionId ∧ event.toStage = rule.toStage ∧
      entry' = { entry with
        currentStage := rule.toStage
        failedAttempts := 0
        nextActionAt := time + delayHoursForStage rule.toStage * ONE_HOUR_MS
        updatedAt := time } := by
  obtain ⟨same, forward, -⟩ := findMatchingRule_spec matching
  unfold applyEscalation
  rw [if_neg (by rw [forward]; exact Bool.true_eq_false_eq_False), if_neg (not_not.mpr same.symm)]
  exact ⟨_, _, _, rfl, rfl, rfl, rfl, rfl, rfl, rfl⟩

end ProgressiveDunningEngine

section Calls

variable {service : DunningService} {id : String} {entry : DunningEntry} {failureType : FailureType} {drawn : Drawn}
  {now : ℚ}

theorem sendFor_eq (service : DunningService) (entry : DunningEntry) (stageConfig : Option DunningStageConfig)
    (strategy : RetryStrategy) (drawn : Drawn) :
    ∃ log communications, service.sendFor entry stageConfig strategy drawn =
      ({ service with communicationLog := log }, { entry with communicationLog := communications }) := by
  cases stageConfig with
  | none => exact ⟨_, _, rfl⟩
  | some stageConfig => exact ⟨_, _, rfl⟩

theorem unpaused_entry (found : service.entries.find id = some entry) (unpaused : entry.isPaused = false) :
    (service.entries.find id).filter (fun e => !e.isPaused) = some entry := by
  rw [found, Option.filter_some, unpaused]
  rfl

inductive Failed (stages : List DunningStageConfig) (schedule : RetryScheduleConfig) (entry entry' : DunningEntry) : Prop
  | within (stays : entry'.currentStage = entry.currentStage) (counted : entry'.failedAttempts = entry.failedAttempts + 1)
      (retryable : schedule.retryable = true) (retries : (entry.failedAttempts + 1 : ℤ) < schedule.maxRetries)
      (attempts : ∀ config, (stages.find? fun s => s.stage = entry.currentStage) = some config →
        (entry.failedAttempts + 1 : ℤ) < config.maxAttempts)
  | advances (i : ℕ) (next : DunningStageConfig) (current : (stages.findIdx? fun s => s.stage = entry.currentStage) = some i)
      (following : stages[i + 1]? = some next) (moved : entry'.currentStage = next.stage) (reset : entry'.failedAttempts = 0)
  | cancelled (moved : entry'.currentStage = .cancel) (reset : entry'.failedAttempts = 0)

theorem recordFailedCharge_cases (found : service.entries.find id = some entry) (unpaused : entry.isPaused = false) :
    ∃ entry', Updated service (service.recordFailedCharge id failureType drawn).1 entry entry' ∧
      (service.recordFailedCharge id failureType drawn).1.escalationBooks = service.escalationBooks ∧
      entry'.totalFailedCharges = entry.totalFailedCharges + 1 ∧
      Failed (service.strategyFor entry).stagesInForce (service.getRetrySchedule failureType) entry entry' := by
  unfold DunningService.recordFailedCharge
  rw [unpaused_entry found unpaused]
  dsimp only
  split
  · rename_i exhausted
    split
    · rename_i next following
      obtain ⟨i, current, following⟩ := Option.bind_eq_some_iff.mp following
      obtain ⟨log, communications, sent⟩ := sendFor_eq
        { service with progressiveEngine := service.progressiveEngine.trackStageEntry _ drawn.now } _ (some next) _ drawn
      rw [sent]
      exact ⟨_, ⟨rfl, rfl, rfl, rfl, rfl, rfl⟩, rfl, rfl, .advances i next current following rfl rfl⟩
    · obtain ⟨log, communications, sent⟩ := sendFor_eq
        { service with progressiveEngine := service.progressiveEngine.trackStageEntry _ drawn.now } _ _ _ drawn
      rw [sent]
      exact ⟨_, ⟨rfl, rfl, rfl, rfl, rfl, rfl⟩, rfl, rfl, .cancelled rfl rfl⟩
  · rename_i left
    rw [← find?_eq_bind_findIdx?_getElem?] at left
    simp only [Bool.or_eq_true, Bool.not_eq_true', decide_eq_true_eq, not_or, not_le, Option.any_eq_true, not_exists,
      not_and, Bool.not_eq_false] at left
    obtain ⟨⟨retryable, retries⟩, attempts⟩ := left
    push_cast at retries attempts
    exact ⟨_, ⟨rfl, rfl, rfl, rfl, rfl, rfl⟩, rfl, rfl, .within rfl rfl retryable retries attempts⟩

structure Escalated (service service' : DunningService) (entry entry' : DunningEntry) (event : EscalationEvent) : Prop where
  updated : Updated service service' entry entry'
  events : service'.progressiveEngine.events = service.progressiveEngine.events ++ [event]
  counts : service'.progressiveEngine.escalationCounts =
    put service.progressiveEngine.escalationCounts entry.subscriptionId
      (service.progressiveEngine.escalationsSoFar entry.subscriptionId + 1)
  own : event.subscriptionId = entry.subscriptionId
  target : event.toStage = entry'.currentStage
  forward : stageIndex entry.currentStage < stageIndex entry'.currentStage
  reset : entry'.failedAttempts = 0
  total : entry'.totalFailedCharges = entry.totalFailedCharges
  left : service.progressiveEngine.escalationsSoFar entry.subscriptionId < service.progressiveEngine.allowance entry.planId

theorem progressiveEscalate_eq {rule : EscalationRule} {engine : ProgressiveDunningEngine} {moved : DunningEntry}
    {event : EscalationEvent} (found : service.entries.find id = some entry) (unpaused : entry.isPaused = false)
    (matching : service.progressiveEngine.findMatchingRule entry now = some rule)
    (applied : service.progressiveEngine.applyEscalation entry rule drawn.eventId drawn.now = .ok (engine, moved, event)) :
    ∃ log communications, service.progressiveEscalate id now drawn =
      .ok ({ service with
          progressiveEngine := engine
          communicationLog := log
          entries := service.entries.set { moved with communicationLog := communications } },
        some ({ moved with communicationLog := communications }, event)) := by
  unfold DunningService.progressiveEscalate
  rw [unpaused_entry found unpaused]
  dsimp only
  rw [matching]
  dsimp only
  rw [applied]
  dsimp only [bind, Except.bind]
  obtain ⟨log, communications, sent⟩ := sendFor_eq { service with progressiveEngine := engine } moved
    (((service.strategyFor moved).stages.find? fun s => s.stage = moved.currentStage).or
      (DEFAULT_DUNNING_STAGES.find? fun s => s.stage = moved.currentStage)) (service.strategyFor moved) drawn
  rw [sent]
  exact ⟨log, communications, rfl⟩

theorem progressiveEscalate_cases (found : service.entries.find id = some entry) :
    service.progressiveEscalate id now drawn = .ok (service, none) ∨
      ∃ service' entry' event, service.progressiveEscalate id now drawn = .ok (service', some (entry', event)) ∧
        Escalated service service' entry entry' event := by
  cases paused : entry.isPaused with
  | true =>
    left
    unfold DunningService.progressiveEscalate
    rw [found, Option.filter_some, paused]
    rfl
  | false =>
    cases matching : service.progressiveEngine.findMatchingRule entry now with
    | none =>
      left
      unfold DunningService.progressiveEscalate
      rw [unpaused_entry found paused]
      dsimp only
      rw [matching]
    | some rule =>
      right
      obtain ⟨same, forward, left⟩ := ProgressiveDunningEngine.findMatchingRule_spec matching
      obtain ⟨engine, moved, event, applied, policies, events, counts, own, target, rfl⟩ :=
        ProgressiveDunningEngine.applyEscalation_spec matching drawn.eventId drawn.now
      obtain ⟨log, communications, escalated⟩ := progressiveEscalate_eq found paused matching applied
      have higher := of_decide_eq_true forward
      rw [same] at higher
      exact ⟨_, _, event, escalated, ⟨rfl, rfl, policies, rfl, rfl, rfl⟩, events, counts, own, target, higher, rfl, rfl, left⟩

structure Touched (service service' : DunningService) (entry entry' : DunningEntry) : Prop where
  updated : Updated service service' entry entry'
  books : service'.escalationBooks = service.escalationBooks
  stage : entry'.currentStage = entry.currentStage
  attempts : entry'.failedAttempts = entry.failedAttempts
  total : entry'.totalFailedCharges = entry.totalFailedCharges

theorem pauseDunning_cases (found : service.entries.find id = some entry) :
    ∃ entry', Touched service (service.pauseDunning id drawn).1 entry entry' := by
  unfold DunningService.pauseDunning
  rw [found]
  exact ⟨_, ⟨rfl, rfl, rfl, rfl, rfl, rfl⟩, rfl, rfl, rfl, rfl⟩

theorem resumeDunning_cases (found : service.entries.find id = some entry) :
    ∃ entry', Touched service (service.resumeDunning id drawn).1 entry entry' := by
  unfold DunningService.resumeDunning
  rw [found]
  exact ⟨_, ⟨rfl, rfl, rfl, rfl, rfl, rfl⟩, rfl, rfl, rfl, rfl⟩

end Calls

end SubTrackr.Dunning
