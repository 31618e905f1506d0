import SubTrackr.Lib.Ladder
import SubTrackr.Dunning.Service
import Mathlib.Data.List.MinMax

namespace SubTrackr.Dunning

open List Lib

inductive Call
  | recordFailedCharge (subscriptionId : String) (failureType : FailureType) (drawn : Drawn)
  | progressiveEscalate (subscriptionId : String) (now : ℚ) (drawn : Drawn)
  | pauseDunning (subscriptionId : String) (drawn : Drawn)
  | resumeDunning (subscriptionId : String) (drawn : Drawn)
  | recordSuccessfulCharge (subscriptionId : String) (drawn : Drawn)

namespace Call

def subject : Call → String
  | .recordFailedCharge subscriptionId _ _ => subscriptionId
  | .progressiveEscalate subscriptionId _ _ => subscriptionId
  | .pauseDunning subscriptionId _ => subscriptionId
  | .resumeDunning subscriptionId _ => subscriptionId
  | .recordSuccessfulCharge subscriptionId _ => subscriptionId

def recovers (id : String) : Call → Bool
  | .recordSuccessfulCharge subscriptionId _ => subscriptionId = id
  | _ => false

def perform (service : DunningService) : Call → DunningService
  | .recordFailedCharge subscriptionId failureType drawn => (service.recordFailedCharge subscriptionId failureType drawn).1
  | .progressiveEscalate subscriptionId now drawn =>
    (service.progressiveEscalate subscriptionId now drawn).toOption.elim service Prod.fst
  | .pauseDunning subscriptionId drawn => (service.pauseDunning subscriptionId drawn).1
  | .resumeDunning subscriptionId drawn => (service.resumeDunning subscriptionId drawn).1
  | .recordSuccessfulCharge subscriptionId drawn => (service.recordSuccessfulCharge subscriptionId drawn).1

end Call

def run (service : DunningService) (calls : List Call) : DunningService := calls.foldl Call.perform service

def escalations (known : ℕ) (id : String) (service : DunningService) : List EscalationEvent :=
  (service.progressiveEngine.events.drop known).filter fun e => e.subscriptionId = id

/-- A stage before `cancel` that a strategy does not list. -/
def missing (stages : List DunningStageConfig) (stage : DunningStage) : Bool :=
  stage ≠ .cancel && (stages.find? fun s => s.stage = stage).isNone

def RetryScheduleConfig.retries (schedule : RetryScheduleConfig) : ℤ := if schedule.retryable then schedule.maxRetries else 1

def DunningService.longestRetry (service : DunningService) : ℤ :=
  (FAILURE_TYPES.map fun t => (service.getRetrySchedule t).retries).foldr max 1

structure Orderly (stages : List DunningStageConfig) : Prop where
  ascending : stages.Pairwise fun a b => stageIndex a.stage < stageIndex b.stage
  positive : ∀ s ∈ stages, 0 < s.maxAttempts

theorem Orderly.inForce {strategy : RetryStrategy} (orderly : Orderly strategy.stages) : Orderly strategy.stagesInForce := by
  unfold RetryStrategy.stagesInForce
  split
  · constructor
    · decide
    · decide
  · exact orderly

theorem Orderly.next_above {stages : List DunningStageConfig} {stage : DunningStage} {next : DunningStageConfig} {i : ℕ}
    (orderly : Orderly stages) (current : (stages.findIdx? fun s => s.stage = stage) = some i)
    (following : stages[i + 1]? = some next) : stageIndex stage < stageIndex next.stage := by
  obtain ⟨inside, meets, -⟩ := List.findIdx?_eq_some_iff_getElem.mp current
  obtain ⟨bound, rfl⟩ := List.getElem?_eq_some_iff.mp following
  rw [decide_eq_true_eq] at meets
  rw [← meets]
  exact List.pairwise_iff_getElem.mp orderly.ascending i (i + 1) inside bound (by omega)

theorem longestRetry_pos (service : DunningService) : 0 < service.longestRetry := by
  have least (xs : List ℤ) : 1 ≤ xs.foldr max 1 := by
    induction xs with
    | nil => exact le_refl _
    | cons x xs ih => exact le_max_of_le_right ih
  have one := least (FAILURE_TYPES.map fun t => (service.getRetrySchedule t).retries)
  unfold DunningService.longestRetry
  omega

theorem retries_le_longest (service : DunningService) (failureType : FailureType) :
    (service.getRetrySchedule failureType).retries ≤ service.longestRetry := by
  have mem : failureType ∈ FAILURE_TYPES := by cases failureType <;> decide
  exact le_max_of_le' 1 (mem_map.mpr ⟨failureType, mem, rfl⟩) (le_refl _)

def ladder (stages : List DunningStageConfig) (orderly : Orderly stages) (service : DunningService) :
    Ladder DunningStageConfig DunningStage where
  stage := DunningStageConfig.stage
  cost := DunningStageConfig.maxAttempts
  items := stages
  rank := stageIndex
  top := .cancel
  limit := service.longestRetry
  positive := orderly.positive
  limit_pos := longestRetry_pos service
  eq_top := by
    intro stage
    cases stage <;> decide
  rank_le_top := by
    intro stage
    cases stage <;> decide

def position (stages : List DunningStageConfig) (known : ℕ) (id : String) (service : DunningService) (entry : DunningEntry) :
    Ladder.Position DunningStage where
  stage := entry.currentStage
  attempts := entry.failedAttempts
  total := entry.totalFailedCharges
  strays := (escalations known id service).countP fun e => missing stages e.toStage

section Moves

variable {service service' start : DunningService} {id : String} {entry entry' : DunningEntry}
  {stages : List DunningStageConfig} {orderly : Orderly stages} {known : ℕ} {call : Call}

theorem strategyFor_eq (configs : service'.configurations = service.configurations) (plan : entry'.plan = entry.plan) :
    service'.strategyFor entry' = service.strategyFor entry := by
  unfold DunningEntry.plan at plan
  obtain ⟨planId, failureReason, abTestVariant⟩ : entry'.planId = entry.planId ∧
      entry'.failureReason = entry.failureReason ∧ entry'.abTestVariant = entry.abTestVariant := by simpa using plan
  unfold DunningService.strategyFor DunningService.getStrategy
  rw [configs, planId, failureReason, abTestVariant]

theorem position_eq (books : service'.escalationBooks = service.escalationBooks) :
    position stages known id service' entry' =
      ⟨entry'.currentStage, entry'.failedAttempts, entry'.totalFailedCharges,
        (position stages known id service entry).strays⟩ := by
  have events : service'.progressiveEngine.events = service.progressiveEngine.events := congrArg Prod.fst books
  unfold position escalations
  rw [events]

theorem failed_moves {failureType : FailureType} (limit : service.getRetrySchedule failureType = start.getRetrySchedule failureType)
    (books : service'.escalationBooks = service.escalationBooks) (total : entry'.totalFailedCharges = entry.totalFailedCharges + 1)
    (failed : Failed stages (service.getRetrySchedule failureType) entry entry') :
    (ladder stages orderly start).Move (position stages known id service entry) (position stages known id service' entry') := by
  rw [@position_eq service service' id entry entry' stages known books, total]
  cases failed with
  | within stays counted retryable retries attempts =>
    rw [stays, counted]
    apply Ladder.Move.fail (position stages known id service entry)
    unfold Ladder.budget
    show _ < ((stages.find? fun s => s.stage = entry.currentStage).map DunningStageConfig.maxAttempts).getD start.longestRetry
    cases mem : stages.find? fun s => s.stage = entry.currentStage with
    | none =>
      have longest := retries_le_longest start failureType
      rw [← limit, RetryScheduleConfig.retries, if_pos retryable] at longest
      exact lt_of_lt_of_le retries longest
    | some config => exact attempts config mem
  | advances i next current following moved reset =>
    rw [moved, reset]
    exact Ladder.Move.advance (position stages known id service entry) next (mem_of_getElem? following)
      (orderly.next_above current following)
  | cancelled moved reset =>
    rw [moved, reset]
    exact Ladder.Move.giveUp (position stages known id service entry)

theorem set_find (entries : Entries) (entry : DunningEntry) (id : String) :
    (entries.set entry).find id = if id = entry.subscriptionId then some entry else entries.find id := by
  show put entries.find entry.subscriptionId entry id = _
  rw [put_apply]

structure Tracked (stages : List DunningStageConfig) (orderly : Orderly stages) (start : DunningService) (first : DunningEntry)
    (known : ℕ) (id : String) (service : DunningService) (entry : DunningEntry) : Prop where
  found : service.entries.find id = some entry
  configurations : service.configurations = start.configurations
  retrySchedules : service.retrySchedules = start.retrySchedules
  policies : service.progressiveEngine.policies = start.progressiveEngine.policies
  plan : entry.plan = first.plan
  known_le : known ≤ service.progressiveEngine.events.length
  within : (ladder stages orderly start).Within (position stages known id service entry)
  counted : (escalations known id service).length ≤ service.progressiveEngine.escalationsSoFar id
  allowed : ((escalations known id service).length : ℤ) ≤ start.progressiveEngine.allowance first.planId

variable {first : DunningEntry}

section

variable (tracked : Tracked stages orderly start first known id service entry)

include tracked

theorem Tracked.schedule (failureType : FailureType) :
    service.getRetrySchedule failureType = start.getRetrySchedule failureType := by
  unfold DunningService.getRetrySchedule
  rw [tracked.retrySchedules]

theorem Tracked.allowance :
    service.progressiveEngine.allowance entry.planId = start.progressiveEngine.allowance first.planId := by
  unfold ProgressiveDunningEngine.allowance ProgressiveDunningEngine.policyFor
  rw [tracked.policies, show entry.planId = first.planId from congrArg Prod.fst tracked.plan]

theorem Tracked.own_key : entry.subscriptionId = id :=
  service.entries.keyed id entry tracked.found

end

theorem Updated.found (updated : Updated service service' entry entry') (own : entry.subscriptionId = id) :
    service'.entries.find id = some entry' := by
  rw [updated.entries, set_find, updated.subscriptionId, own, if_pos rfl]

theorem Tracked.changed (tracked : Tracked stages orderly start first known id service entry)
    (updated : Updated service service' entry entry') (books : service'.escalationBooks = service.escalationBooks)
    (move : (ladder stages orderly start).Move (position stages known id service entry)
      (position stages known id service' entry')) :
    Tracked stages orderly start first known id service' entry' := by
  have events : service'.progressiveEngine.events = service.progressiveEngine.events := congrArg Prod.fst books
  have counts : service'.progressiveEngine.escalationCounts = service.progressiveEngine.escalationCounts :=
    congrArg Prod.snd books
  have same : escalations known id service' = escalations known id service := by
    unfold escalations
    rw [events]
  have soFar : service'.progressiveEngine.escalationsSoFar id = service.progressiveEngine.escalationsSoFar id := by
    unfold ProgressiveDunningEngine.escalationsSoFar
    rw [counts]
  constructor
  · exact updated.found tracked.own_key
  · exact updated.configurations.trans tracked.configurations
  · exact updated.retrySchedules.trans tracked.retrySchedules
  · exact updated.policies.trans tracked.policies
  · exact updated.plan.trans tracked.plan
  · rw [events]
    exact tracked.known_le
  · exact move.within tracked.within
  · rw [same, soFar]
    exact tracked.counted
  · rw [same]
    exact tracked.allowed

theorem Escalated.escalations {event : EscalationEvent} (escalated : Escalated service service' entry entry' event)
    (own : entry.subscriptionId = id) (known_le : known ≤ service.progressiveEngine.events.length) :
    escalations known id service' = escalations known id service ++ [event] := by
  unfold Dunning.escalations
  rw [escalated.events, drop_append_of_le_length known_le, filter_append,
    filter_cons_of_pos (by simpa using escalated.own.trans own), filter_nil]

theorem Tracked.escalated {event : EscalationEvent} (tracked : Tracked stages orderly start first known id service entry)
    (escalated : Escalated service service' entry entry' event) :
    Tracked stages orderly start first known id service' entry' := by
  have recorded := escalated.escalations tracked.own_key tracked.known_le
  have soFar : service'.progressiveEngine.escalationsSoFar id = service.progressiveEngine.escalationsSoFar id + 1 := by
    unfold ProgressiveDunningEngine.escalationsSoFar
    rw [escalated.counts, tracked.own_key, put_self]
    rfl
  have left := escalated.left
  rw [tracked.own_key, tracked.allowance] at left
  have counted := tracked.counted
  have move : (ladder stages orderly start).Move (position stages known id service entry)
      (position stages known id service' entry') := by
    have moved : position stages known id service' entry' =
        ⟨entry'.currentStage, 0, (position stages known id service entry).total,
          (position stages known id service entry).strays +
            if (ladder stages orderly start).isStray entry'.currentStage then 1 else 0⟩ := by
      unfold position
      rw [recorded, escalated.reset, escalated.total, countP_append, countP_singleton, escalated.target]
      rfl
    rw [moved]
    exact Ladder.Move.escalate _ _ escalated.forward
  constructor
  · exact escalated.updated.found tracked.own_key
  · exact escalated.updated.configurations.trans tracked.configurations
  · exact escalated.updated.retrySchedules.trans tracked.retrySchedules
  · exact escalated.updated.policies.trans tracked.policies
  · exact escalated.updated.plan.trans tracked.plan
  · have more := tracked.known_le
    rw [escalated.events, length_append]
    omega
  · exact move.within tracked.within
  · rw [recorded, soFar, length_append, length_singleton]
    omega
  · rw [recorded, length_append, length_singleton]
    push_cast
    omega

end Moves

end SubTrackr.Dunning
