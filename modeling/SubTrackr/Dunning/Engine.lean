import SubTrackr.Lib.Store
import Mathlib.Data.Rat.Floor
import Mathlib.Data.String.Basic

namespace SubTrackr.Dunning

open Lib

def ONE_HOUR_MS : ℚ := 3600000

inductive DunningStage
  | retry
  | warn
  | suspend
  | cancel
  deriving DecidableEq

def STAGE_ORDER : List DunningStage := [.retry, .warn, .suspend, .cancel]

def stageIndex (stage : DunningStage) : ℕ := STAGE_ORDER.idxOf stage

def DunningStage.text : DunningStage → String
  | .retry => "retry"
  | .warn => "warn"
  | .suspend => "suspend"
  | .cancel => "cancel"

def isForwardEscalation (fromStage toStage : DunningStage) : Bool := stageIndex fromStage < stageIndex toStage

structure DunningStageConfig where
  stage : DunningStage
  delayHours : ℚ
  maxAttempts : ℤ
  templateId : String
  deriving DecidableEq

def DEFAULT_DUNNING_STAGES : List DunningStageConfig :=
  [⟨.retry, 1, 3, "payment_retry"⟩, ⟨.warn, 24, 2, "payment_warning"⟩, ⟨.suspend, 72, 1, "service_suspension"⟩,
    ⟨.cancel, 168, 1, "subscription_cancellation"⟩]

inductive EscalationChannel
  | email
  | push
  | in_app
  | sms
  | support
  deriving DecidableEq

structure EscalationRule where
  id : String
  (fromStage toStage : DunningStage)
  afterFailedAttempts : Option ℚ := none
  afterHours : Option ℚ := none
  minRecoveryProbability : Option ℚ := none
  channels : List EscalationChannel
  templateId : String
  priority : ℚ

structure EscalationPolicy where
  planId : String
  rules : List EscalationRule
  enabled : Bool
  maxEscalations : ℤ

structure ConfiguredPolicy extends EscalationPolicy where
  atLeastOne : 1 ≤ maxEscalations

structure EscalationEvent where
  (id subscriptionId planId ruleId : String)
  (fromStage toStage : DunningStage)
  channels : List EscalationChannel
  templateId : String
  triggeredAt : ℚ
  reason : String

inductive FailureReason
  | insufficient_funds
  | expired_card
  | network
  | default
  deriving DecidableEq

inductive CommunicationChannel
  | email
  | push
  | in_app
  deriving DecidableEq

inductive CommunicationStatus
  | sent
  | failed
  | opened
  | clicked
  deriving DecidableEq

structure DunningCommunication where
  id : String
  stage : DunningStage
  channel : CommunicationChannel
  templateId : String
  sentAt : ℚ
  status : CommunicationStatus
  metadata : List (String × String)

structure DunningEntry where
  (id subscriptionId subscriberId merchantId planId : String)
  failureReason : FailureReason
  abTestVariant : Option String
  currentStage : DunningStage
  (failedAttempts totalFailedCharges : ℕ)
  (firstFailureAt lastFailureAt lastAttemptAt nextActionAt : ℚ)
  isPaused : Bool
  communicationLog : List DunningCommunication
  (createdAt updatedAt : ℚ)

def createDefaultEscalationPolicy (planId : String) : EscalationPolicy where
  planId
  rules := ((DEFAULT_DUNNING_STAGES.zip DEFAULT_DUNNING_STAGES.tail).zipIdx).map fun step =>
    { id := "rule_" ++ step.1.1.stage.text ++ "_to_" ++ step.1.2.stage.text
      fromStage := step.1.1.stage
      toStage := step.1.2.stage
      afterFailedAttempts := some step.1.1.maxAttempts
      afterHours := some (step.1.1.delayHours * max step.1.1.maxAttempts 1)
      channels := [.email, .push]
      templateId := step.1.2.templateId
      priority := 100 - step.2 * 10 }
  enabled := true
  maxEscalations := STAGE_ORDER.length - 1

structure PathStats where
  (escalations recoveries : ℕ)

structure RecoveryRecord where
  (subscriptionId path : String)
  recovered : Bool
  escalationCount : ℕ
  time : ℚ

structure ProgressiveDunningEngine where
  policies : Store String ConfiguredPolicy
  events : List EscalationEvent
  escalationCounts : Store String ℕ
  (stageEnteredAt recoveryEstimates : Store String ℚ)
  timingSamples : List (DunningStage × ℚ)
  recoveryRecords : List RecoveryRecord
  (stageEntries stageExits stageRecoveries stageEscalations : DunningStage → ℕ)
  pathCounts : Store String PathStats
  activeStageCounts : Store String DunningStage

def countUp (counts : DunningStage → ℕ) (stage : DunningStage) : DunningStage → ℕ :=
  Function.update counts stage (counts stage + 1)

def tenthsText (tenths : ℕ) : String :=
  if tenths % 10 = 0 then toString (tenths / 10) else toString (tenths / 10) ++ "." ++ toString (tenths % 10)

def byPriority (rules : List EscalationRule) : List EscalationRule :=
  rules.insertionSort fun a b => b.priority ≤ a.priority

def normalize (policy : EscalationPolicy) : ConfiguredPolicy where
  planId := policy.planId
  rules := byPriority (policy.rules.filter fun r => isForwardEscalation r.fromStage r.toStage)
  enabled := policy.enabled
  maxEscalations := max 1 policy.maxEscalations
  atLeastOne := le_max_left _ _

def ruleMatches (rule : EscalationRule) (entry : DunningEntry) (hoursInStage recoveryProb : ℚ) : Bool :=
  if rule.minRecoveryProbability.any (recoveryProb < ·) then false
  else if rule.afterFailedAttempts.isNone && rule.afterHours.isNone then true
  else rule.afterFailedAttempts.any (· ≤ (entry.failedAttempts : ℚ)) || rule.afterHours.any (· ≤ hoursInStage)

def delayHoursForStage : DunningStage → ℚ
  | .retry => 1
  | .warn => 24
  | .suspend => 72
  | .cancel => 168

namespace ProgressiveDunningEngine

def configurePolicy (engine : ProgressiveDunningEngine) (policy : EscalationPolicy) :
    ProgressiveDunningEngine × ConfiguredPolicy :=
  ({ engine with policies := put engine.policies policy.planId (normalize policy) }, normalize policy)

def new : ProgressiveDunningEngine :=
  (configurePolicy
    { policies := fun _ => none
      events := []
      escalationCounts := fun _ => none
      stageEnteredAt := fun _ => none
      recoveryEstimates := fun _ => none
      timingSamples := []
      recoveryRecords := []
      stageEntries := fun _ => 0
      stageExits := fun _ => 0
      stageRecoveries := fun _ => 0
      stageEscalations := fun _ => 0
      pathCounts := fun _ => none
      activeStageCounts := fun _ => none }
    (createDefaultEscalationPolicy "default")).1

def policyFor (engine : ProgressiveDunningEngine) (planId : String) : Option ConfiguredPolicy :=
  (engine.policies planId).or (engine.policies "default")

def setRecoveryEstimate (engine : ProgressiveDunningEngine) (subscriptionId : String) (probability : ℚ) :
    ProgressiveDunningEngine :=
  { engine with recoveryEstimates := put engine.recoveryEstimates subscriptionId (max 0 (min 1 probability)) }

def trackStageEntry (engine : ProgressiveDunningEngine) (entry : DunningEntry) (time : ℚ) : ProgressiveDunningEngine :=
  { engine with
    stageEnteredAt := put engine.stageEnteredAt entry.subscriptionId time
    stageEntries := countUp engine.stageEntries entry.currentStage
    activeStageCounts := put engine.activeStageCounts entry.subscriptionId entry.currentStage }

def buildPath (engine : ProgressiveDunningEngine) (subscriptionId : String) (currentStage : DunningStage) : String :=
  match engine.events.filter fun e => e.subscriptionId = subscriptionId with
  | [] => currentStage.text
  | first :: rest => "->".intercalate ((first.fromStage :: (first :: rest).map EscalationEvent.toStage).map DunningStage.text)

def escalationsSoFar (engine : ProgressiveDunningEngine) (subscriptionId : String) : ℕ :=
  (engine.escalationCounts subscriptionId).getD 0

def recordRecovery (engine : ProgressiveDunningEngine) (entry : DunningEntry) (time : ℚ) : ProgressiveDunningEngine :=
  let path := engine.buildPath entry.subscriptionId entry.currentStage
  let sample := (engine.stageEnteredAt entry.subscriptionId).map fun enteredAt =>
    (entry.currentStage, (time - enteredAt) / ONE_HOUR_MS)
  let pathStats := (engine.pathCounts path).getD ⟨0, 0⟩
  { engine with
    stageRecoveries := countUp engine.stageRecoveries entry.currentStage
    stageExits := countUp engine.stageExits entry.currentStage
    timingSamples := engine.timingSamples ++ sample.toList
    recoveryRecords := engine.recoveryRecords ++
      [⟨entry.subscriptionId, path, true, engine.escalationsSoFar entry.subscriptionId, time⟩]
    pathCounts := put engine.pathCounts path { pathStats with recoveries := pathStats.recoveries + 1 }
    activeStageCounts := remove engine.activeStageCounts entry.subscriptionId
    stageEnteredAt := remove engine.stageEnteredAt entry.subscriptionId
    escalationCounts := remove engine.escalationCounts entry.subscriptionId
    recoveryEstimates := remove engine.recoveryEstimates entry.subscriptionId }

def hoursInCurrentStage (engine : ProgressiveDunningEngine) (entry : DunningEntry) (now : ℚ) : ℚ :=
  max 0 ((now - (engine.stageEnteredAt entry.subscriptionId).getD entry.updatedAt) / ONE_HOUR_MS)

def findMatchingRule (engine : ProgressiveDunningEngine) (entry : DunningEntry) (now : ℚ) : Option EscalationRule :=
  if entry.isPaused then none
  else
    match (engine.policyFor entry.planId).filter fun policy => policy.enabled with
    | none => none
    | some policy =>
      if policy.maxEscalations ≤ engine.escalationsSoFar entry.subscriptionId then none
      else
        let hoursInStage := engine.hoursInCurrentStage entry now
        let recoveryProb := (engine.recoveryEstimates entry.subscriptionId).getD (1 / 2)
        (byPriority (((policy.rules.filter fun rule => rule.fromStage = entry.currentStage).filter fun rule =>
          isForwardEscalation rule.fromStage rule.toStage).filter fun rule =>
            ruleMatches rule entry hoursInStage recoveryProb)).head?

def evaluateEscalation (engine : ProgressiveDunningEngine) (entry : DunningEntry) (now : ℚ) : Option DunningStage :=
  (engine.findMatchingRule entry now).map EscalationRule.toStage

def describeReason (engine : ProgressiveDunningEngine) (rule : EscalationRule) (entry : DunningEntry) (now : ℚ) : String :=
  let tenths := ⌊engine.hoursInCurrentStage entry now * 10 + 1 / 2⌋
  let attempts :=
    if rule.afterFailedAttempts.any (· ≤ (entry.failedAttempts : ℚ)) then [toString entry.failedAttempts ++ " failed attempts"]
    else []
  let hours :=
    if rule.afterHours.any (· ≤ (tenths : ℚ) / 10) then [tenthsText tenths.toNat ++ "h in " ++ entry.currentStage.text] else []
  let parts := if (attempts ++ hours).isEmpty then ["rule " ++ rule.id ++ " matched"] else attempts ++ hours
  "Escalated " ++ rule.fromStage.text ++ " → " ++ rule.toStage.text ++ ": " ++ ", ".intercalate parts

def applyEscalation (engine : ProgressiveDunningEngine) (entry : DunningEntry) (rule : EscalationRule) (id : String) (now : ℚ) :
    Except String (ProgressiveDunningEngine × DunningEntry × EscalationEvent) :=
  if isForwardEscalation rule.fromStage rule.toStage = false then
    .error ("Non-progressive escalation blocked: " ++ rule.fromStage.text ++ " → " ++ rule.toStage.text)
  else if entry.currentStage ≠ rule.fromStage then
    .error ("Rule fromStage " ++ rule.fromStage.text ++ " does not match entry stage " ++ entry.currentStage.text)
  else
    let enteredAt := (engine.stageEnteredAt entry.subscriptionId).getD entry.updatedAt
    let event : EscalationEvent :=
      { id
        subscriptionId := entry.subscriptionId
        planId := entry.planId
        ruleId := rule.id
        fromStage := rule.fromStage
        toStage := rule.toStage
        channels := rule.channels
        templateId := rule.templateId
        triggeredAt := now
        reason := engine.describeReason rule entry now }
    let path := rule.fromStage.text ++ "->" ++ rule.toStage.text
    let pathStats := (engine.pathCounts path).getD ⟨0, 0⟩
    let updated :=
      { entry with
        currentStage := rule.toStage
        failedAttempts := 0
        nextActionAt := now + delayHoursForStage rule.toStage * ONE_HOUR_MS
        updatedAt := now }
    .ok
      ({ engine with
          events := engine.events ++ [event]
          escalationCounts :=
            put engine.escalationCounts entry.subscriptionId (engine.escalationsSoFar entry.subscriptionId + 1)
          stageEnteredAt := put engine.stageEnteredAt entry.subscriptionId now
          timingSamples := engine.timingSamples ++ [(entry.currentStage, (now - enteredAt) / ONE_HOUR_MS)]
          stageEntries := countUp engine.stageEntries rule.toStage
          stageExits := countUp engine.stageExits entry.currentStage
          stageEscalations := countUp engine.stageEscalations entry.currentStage
          pathCounts := put engine.pathCounts path { pathStats with escalations := pathStats.escalations + 1 }
          activeStageCounts := put engine.activeStageCounts entry.subscriptionId rule.toStage },
        updated, event)

end ProgressiveDunningEngine

end SubTrackr.Dunning
