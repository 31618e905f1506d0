import SubTrackr.Lib.Histories
import SubTrackr.Lib.Store
import SubTrackr.Soroban

namespace SubTrackr.Fraud

open Lib Soroban

def highRiskThreshold : Nat := 80
def reviewThreshold : Nat := 50
def velocityWindowSecs : Nat := 86400
def velocityLimit : Nat := 3
def maxReviewCases : Nat := 5

def u32Max : Nat := 2 ^ 32 - 1

inductive FraudAction where
  | approve | flag | block
  deriving DecidableEq

inductive FraudReviewStatus where
  | pending | reviewed | dismissed | escalated
  deriving DecidableEq

inductive RiskSignalKind where
  | velocity | usageAnomaly | chargeback | patternShift | deviceMismatch
  deriving DecidableEq

structure RiskSignal where
  kind : RiskSignalKind
  score : Nat
  detail : String
  observedAt : Nat

structure RiskScore where
  subscriber : Address
  subscriptionId : Nat
  merchantId : Address
  (totalScore velocityScore anomalyScore chargebackScore : Nat)
  action : FraudAction
  reason : String
  assessedAt : Nat
  signals : List RiskSignal

structure FraudCase where
  (caseId subscriptionId : Nat)
  (subscriber merchantId : Address)
  riskScore : Nat
  action : FraudAction
  status : FraudReviewStatus
  reason : String
  (createdAt updatedAt : Nat)

structure FraudReport where
  merchantId : Address
  totalSubscriptions : Nat
  flaggedSubscriptions : Nat
  blockedSubscriptions : Nat
  manualReviewCount : Nat
  (averageRisk velocityAlerts anomalyAlerts chargebackPredictions highRiskSubscribers : Nat)
  recentCases : List FraudCase

structure SubscriptionProfile where
  subscriptionId : Nat
  (subscriber merchantId : Address)
  (createdAt lastActivityAt expectedUsage observedUsage chargebacks : Nat)
  (isFlagged isBlocked : Bool)

structure State where
  subscription : Store Nat SubscriptionProfile
  (subscriberSubscriptions merchantSubscriptions : Store Address (List Nat))
  reviewCase : Store Nat FraudCase
  events : List (Nat × Nat × FraudAction)

def State.empty : State where
  subscription := fun _ => none
  subscriberSubscriptions := fun _ => none
  merchantSubscriptions := fun _ => none
  reviewCase := fun _ => none
  events := []

def pushUnique {α : Type} [DecidableEq α] (items : List α) (value : α) : List α :=
  if value ∈ items then items else items ++ [value]

def getSubscriptions (s : State) (subscriber : Address) : List Nat := (s.subscriberSubscriptions subscriber).getD []

def getMerchantSubscriptions (s : State) (merchant : Address) : List Nat := (s.merchantSubscriptions merchant).getD []

def saveProfile (s : State) (profile : SubscriptionProfile) : State :=
  { s with subscription := put s.subscription profile.subscriptionId profile }

def determineVelocityScore (now : Nat) (s : State) (profile : SubscriptionProfile) (ids : List Nat) : Result Nat := do
  let recentCreations ← u32 (ids.countP fun id => (s.subscription id).any fun other =>
    now - other.createdAt ≤ velocityWindowSecs ∧ other.subscriber = profile.subscriber)
  if recentCreations ≤ velocityLimit then return 0
  let weighted ← u32 ((recentCreations - velocityLimit) * 15)
  return min weighted 40

def determineAnomalyScore (profile : SubscriptionProfile) : Nat :=
  if profile.expectedUsage = 0 ∧ 0 < profile.observedUsage then 20
  else if profile.expectedUsage = 0 then 0
  else if min (profile.expectedUsage * 3) u32Max ≤ profile.observedUsage then 35
  else if min (profile.expectedUsage * 2) u32Max ≤ profile.observedUsage then 25
  else if profile.expectedUsage < profile.observedUsage then 10
  else 0

def determineChargebackScore (profile : SubscriptionProfile) : Nat :=
  match profile.chargebacks with
  | 0 => 0
  | 1 => 30
  | 2 => 50
  | _ => 70

def determineAction (score : Nat) : FraudAction :=
  if highRiskThreshold ≤ score then .block else if reviewThreshold ≤ score then .flag else .approve

def scoreProfile (now : Nat) (s : State) (profile : SubscriptionProfile) (ids : List Nat) : Result RiskScore := do
  let velocityScore ← determineVelocityScore now s profile ids
  let anomalyScore := determineAnomalyScore profile
  let chargebackScore := determineChargebackScore profile
  let totalScore := min (velocityScore + anomalyScore + chargebackScore) 100
  let signal (kind : RiskSignalKind) (score : Nat) (detail : String) : List RiskSignal :=
    if 0 < score then [⟨kind, score, detail, now⟩] else []
  return {
    subscriber := profile.subscriber
    subscriptionId := profile.subscriptionId
    merchantId := profile.merchantId
    totalScore
    velocityScore
    anomalyScore
    chargebackScore
    action := determineAction totalScore
    reason :=
      if anomalyScore ≤ chargebackScore ∧ velocityScore ≤ chargebackScore then "chargeback risk dominates"
      else if anomalyScore ≤ velocityScore then "velocity risk is elevated"
      else "usage anomaly detected"
    assessedAt := now
    signals :=
      signal .velocity velocityScore "rapid subscription creation" ++
        signal .usageAnomaly anomalyScore "usage pattern deviates from baseline" ++
        signal .chargeback chargebackScore "chargeback history predicts dispute risk" }

def caseOf (score : RiskScore) (status : FraudReviewStatus) : FraudCase where
  caseId := score.subscriptionId
  subscriptionId := score.subscriptionId
  subscriber := score.subscriber
  merchantId := score.merchantId
  riskScore := score.totalScore
  action := score.action
  status := status
  reason := score.reason
  createdAt := score.assessedAt
  updatedAt := score.assessedAt

def persistCase (s : State) (score : RiskScore) (status : FraudReviewStatus) : State :=
  { s with reviewCase := put s.reviewCase score.subscriptionId (caseOf score status) }

def SubscriptionProfile.scored (profile : SubscriptionProfile) (score : RiskScore) : SubscriptionProfile :=
  { profile with
    isFlagged := score.action = .flag ∨ score.action = .block
    isBlocked := score.action = .block
    lastActivityAt := score.assessedAt }

def updateProfileAction (s : State) (subscriptionId : Nat) (score : RiskScore) : State :=
  match s.subscription subscriptionId with
  | some profile => saveProfile s (profile.scored score)
  | none => s

def freshProfile (subscriber merchantId : Address) (subscriptionId createdAt : Nat) : SubscriptionProfile where
  subscriptionId := subscriptionId
  subscriber := subscriber
  merchantId := merchantId
  createdAt := createdAt
  lastActivityAt := createdAt
  expectedUsage := 1
  observedUsage := 1
  chargebacks := 0
  isFlagged := false
  isBlocked := false

def registerSubscription (host : Host) (subscriber merchantId : Address) (subscriptionId createdAt : Nat) (s : State) :
    Result State := do
  host.requireAuth subscriber
  let s := saveProfile s (freshProfile subscriber merchantId subscriptionId createdAt)
  let subscriberIds := pushUnique (getSubscriptions s subscriber) subscriptionId
  let s := { s with subscriberSubscriptions := put s.subscriberSubscriptions subscriber subscriberIds }
  let merchantIds := pushUnique (getMerchantSubscriptions s merchantId) subscriptionId
  return { s with merchantSubscriptions := put s.merchantSubscriptions merchantId merchantIds }

def recordUsagePattern (host : Host) (subscriber : Address) (subscriptionId expectedUsage observedUsage : Nat) (s : State) :
    Result State := do
  host.requireAuth subscriber
  match s.subscription subscriptionId with
  | some profile => return saveProfile s { profile with expectedUsage, observedUsage, lastActivityAt := host.timestamp }
  | none => return s

def recordChargeback (host : Host) (subscriber : Address) (subscriptionId : Nat) (s : State) : Result State := do
  host.requireAuth subscriber
  match s.subscription subscriptionId with
  | some profile =>
    return saveProfile s
      { profile with chargebacks := min (profile.chargebacks + 1) u32Max, lastActivityAt := host.timestamp }
  | none => return s

def noHistory (now : Nat) (subscriber : Address) : RiskScore where
  subscriber := subscriber
  subscriptionId := 0
  merchantId := subscriber
  totalScore := 0
  velocityScore := 0
  anomalyScore := 0
  chargebackScore := 0
  action := .approve
  reason := "no subscription history"
  assessedAt := now
  signals := []

def assessRisk (host : Host) (subscriber : Address) (s : State) : Result RiskScore :=
  match getSubscriptions s subscriber with
  | [] => return noHistory host.timestamp subscriber
  | first :: rest => do
    let ids := first :: rest
    let profile ← present (s.subscription first) (.host "unwrap on None")
    let first ← scoreProfile host.timestamp s profile ids
    rest.foldlM (fun highest id =>
      match s.subscription id with
      | some profile => do
        let next ← scoreProfile host.timestamp s profile ids
        return if highest.totalScore < next.totalScore then next else highest
      | none => return highest) first

def flagSubscription (host : Host) (subscriptionId : Nat) (s : State) : Result State := do
  let profile ← expect (s.subscription subscriptionId) "Subscription not found"
  let score ← scoreProfile host.timestamp s profile (getSubscriptions s profile.subscriber)
  let status := if score.action = .block then .escalated else .pending
  let s := persistCase s score status
  let s := updateProfileAction s subscriptionId score
  return { s with events := s.events ++ [(score.subscriptionId, score.totalScore, score.action)] }

def FraudCase.review (case : FraudCase) (now : Nat) (approved : Bool) : FraudCase :=
  { case with status := .reviewed, updatedAt := now, action := if approved then .approve else .block }

def resolveCase (host : Host) (subscriber : Address) (subscriptionId : Nat) (approved : Bool) (s : State) : Result State := do
  host.requireAuth subscriber
  match s.reviewCase subscriptionId with
  | some case => return { s with reviewCase := put s.reviewCase subscriptionId (case.review host.timestamp approved) }
  | none => return s

structure Survey where
  state : State
  (totalRisk flagged blocked manualReview velocityAlerts anomalyAlerts chargebackPredictions : Nat)
  highRiskSubscribers : List Address
  recentCases : List FraudCase

def Survey.start (s : State) : Survey where
  state := s
  totalRisk := 0
  flagged := 0
  blocked := 0
  manualReview := 0
  velocityAlerts := 0
  anomalyAlerts := 0
  chargebackPredictions := 0
  highRiskSubscribers := []
  recentCases := []

def Survey.withCase (survey : Survey) (score : RiskScore) : Survey :=
  match survey.state.reviewCase score.subscriptionId with
  | some case => { survey with recentCases := survey.recentCases ++ [case] }
  | none =>
    if reviewThreshold ≤ score.totalScore then
      { survey with
        state := persistCase survey.state score .pending
        recentCases := survey.recentCases ++ [caseOf score .pending] }
    else survey

def Survey.round (now : Nat) (survey : Survey) (id : Nat) : Result Survey :=
  match survey.state.subscription id with
  | none => return survey
  | some profile => do
    let score ← scoreProfile now survey.state profile (getSubscriptions survey.state profile.subscriber)
    let totalRisk ← u32 (survey.totalRisk + score.totalScore)
    let count (c : Bool) (n : Nat) : Nat := if c then n + 1 else n
    let reviewed := decide (reviewThreshold ≤ score.totalScore)
    return Survey.withCase
      { survey with
        totalRisk
        flagged := count (score.action = .flag ∨ score.action = .block) survey.flagged
        blocked := count (score.action = .block) survey.blocked
        manualReview := count reviewed survey.manualReview
        velocityAlerts := count (0 < score.velocityScore) survey.velocityAlerts
        anomalyAlerts := count (0 < score.anomalyScore) survey.anomalyAlerts
        chargebackPredictions := count (0 < score.chargebackScore) survey.chargebackPredictions
        highRiskSubscribers :=
          if reviewed then pushUnique survey.highRiskSubscribers score.subscriber else survey.highRiskSubscribers } score

def getFraudReport (host : Host) (merchantId : Address) (s : State) : Result (State × FraudReport) := do
  let ids := getMerchantSubscriptions s merchantId
  let survey ← ids.foldlM (Survey.round host.timestamp) (.start s)
  return (survey.state, {
    merchantId
    totalSubscriptions := ids.length
    flaggedSubscriptions := survey.flagged
    blockedSubscriptions := survey.blocked
    manualReviewCount := survey.manualReview
    averageRisk := if ids.length = 0 then 0 else survey.totalRisk / ids.length
    velocityAlerts := survey.velocityAlerts
    anomalyAlerts := survey.anomalyAlerts
    chargebackPredictions := survey.chargebackPredictions
    highRiskSubscribers := survey.highRiskSubscribers.length
    recentCases := survey.recentCases.reverse.take maxReviewCases })

inductive Call where
  | registerSubscription (subscriber merchantId : Address) (subscriptionId createdAt : Nat)
  | recordUsagePattern (subscriber : Address) (subscriptionId expectedUsage observedUsage : Nat)
  | recordChargeback (subscriber : Address) (subscriptionId : Nat)
  | assessRisk (subscriber : Address)
  | flagSubscription (subscriptionId : Nat)
  | resolveCase (subscriber : Address) (subscriptionId : Nat) (approved : Bool)
  | getFraudReport (merchantId : Address)

def Call.signer : Call → Option Address
  | .registerSubscription subscriber .. => some subscriber
  | .recordUsagePattern subscriber .. => some subscriber
  | .recordChargeback subscriber .. => some subscriber
  | .assessRisk _ => none
  | .flagSubscription _ => none
  | .resolveCase subscriber .. => some subscriber
  | .getFraudReport _ => none

def exec (host : Host) (s : State) : Call → Result State
  | .registerSubscription subscriber merchantId id createdAt =>
    registerSubscription host subscriber merchantId id createdAt s
  | .recordUsagePattern subscriber id expectedUsage observedUsage =>
    recordUsagePattern host subscriber id expectedUsage observedUsage s
  | .recordChargeback subscriber id => recordChargeback host subscriber id s
  | .assessRisk subscriber => do
    let _ ← assessRisk host subscriber s
    return s
  | .flagSubscription id => flagSubscription host id s
  | .resolveCase subscriber id approved => resolveCase host subscriber id approved s
  | .getFraudReport merchantId => do
    let (s, _) ← getFraudReport host merchantId s
    return s

end SubTrackr.Fraud
