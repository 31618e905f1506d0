import Mathlib.Data.Rat.Floor
import SubTrackr.Lib.InsertionMap
import SubTrackr.Lib.JsValue

namespace SubTrackr.Trial

open Lib

/-- The time of a `Date` in milliseconds. An invalid one has none. -/
abbrev Date := Option ℤ

def maxTime : ℤ := 8640000000000000

def newDate (ms : ℚ) : Date := if |ms| ≤ maxTime then some (if 0 ≤ ms then ⌊ms⌋ else ⌈ms⌉) else none

def Date.addDays (date : Date) (days : ℚ) : Date := date.bind fun time => newDate (time + days * 86400000)

def Date.Before (a b : Date) : Prop := ∃ x ∈ a, ∃ y ∈ b, x < y

instance (a b : Date) : Decidable (a.Before b) :=
  match a, b with
  | some x, some y => decidable_of_iff (x < y) (by simp [Date.Before])
  | none, _ => isFalse (by simp [Date.Before])
  | some _, none => isFalse (by simp [Date.Before])

structure TrialPolicy where
  planId : String
  (durationDays gracePeriodDays : ℚ)
  autoConvertOnExpiry : Bool
  (earlyConversionDiscountBps maxExtensionsAllowed extensionBonusDays incentiveThresholdScore : ℚ)

structure PartialTrialPolicy where
  durationDays : Option ℚ := none
  gracePeriodDays : Option ℚ := none
  autoConvertOnExpiry : Option Bool := none
  earlyConversionDiscountBps : Option ℚ := none
  maxExtensionsAllowed : Option ℚ := none
  extensionBonusDays : Option ℚ := none
  incentiveThresholdScore : Option ℚ := none

/-- `{ ...policy, ...overrides }`, but for the name of the plan, which nothing reads afterwards. -/
def TrialPolicy.override (policy : TrialPolicy) (overrides : PartialTrialPolicy) : TrialPolicy where
  planId := policy.planId
  durationDays := overrides.durationDays.getD policy.durationDays
  gracePeriodDays := overrides.gracePeriodDays.getD policy.gracePeriodDays
  autoConvertOnExpiry := overrides.autoConvertOnExpiry.getD policy.autoConvertOnExpiry
  earlyConversionDiscountBps := overrides.earlyConversionDiscountBps.getD policy.earlyConversionDiscountBps
  maxExtensionsAllowed := overrides.maxExtensionsAllowed.getD policy.maxExtensionsAllowed
  extensionBonusDays := overrides.extensionBonusDays.getD policy.extensionBonusDays
  incentiveThresholdScore := overrides.incentiveThresholdScore.getD policy.incentiveThresholdScore

inductive TrialStatus where
  | active | extended | converted | expired | cancelled
  deriving DecidableEq

structure TrialMetadata where
  maxExtensionsAllowed : Option ℚ := none
  lastExtensionReason : Option String := none
  cancellationReason : Option String := none

/-- A trial, without the activity signals, which only its score is computed from. -/
structure TrialSubscriptionRecord where
  (id userId planId : String)
  planPriceUsd : ℚ
  (startDate endDate originalEndDate gracePeriodEndDate : Date)
  status : TrialStatus
  autoConvert : Bool
  extensionCount : ℕ
  conversionDiscountBps : ℚ
  convertedAt : Option Date
  conversionTrigger : Option String
  metadata : Option TrialMetadata

def DEFAULT_TRIAL_POLICY : TrialPolicy where
  planId := "default-plan"
  durationDays := 14
  gracePeriodDays := 3
  autoConvertOnExpiry := true
  earlyConversionDiscountBps := 2000
  maxExtensionsAllowed := 2
  extensionBonusDays := 5
  incentiveThresholdScore := 60

structure TrialManagementService where
  policies : InsertionMap String TrialPolicy
  trials : InsertionMap String TrialSubscriptionRecord

def trialIdOf (userId : String) (now : ℤ) : String :=
  String.ofList ("trial_".toList ++ userId.toList ++ '_' :: Numeral.signedDigits now)

namespace TrialManagementService

variable (s : TrialManagementService)

def registerPolicy (policy : TrialPolicy) : TrialManagementService :=
  { s with policies := s.policies.set policy.planId policy }

def new : TrialManagementService := registerPolicy ⟨∅, ∅⟩ DEFAULT_TRIAL_POLICY

def getPolicy (planId : String) : TrialPolicy := (s.policies.get planId).getD { DEFAULT_TRIAL_POLICY with planId := planId }

def save (trial : TrialSubscriptionRecord) : TrialManagementService := { s with trials := s.trials.set trial.id trial }

def startTrial (now : ℤ) (userId planId : String) (planPriceUsd : ℚ) (customPolicyOverrides : PartialTrialPolicy)
    (metadata : Option TrialMetadata) : TrialManagementService :=
  let policy := (s.getPolicy planId).override customPolicyOverrides
  let startDate : Date := some now
  let endDate := startDate.addDays policy.durationDays
  s.save
    { id := trialIdOf userId now
      userId := userId
      planId := planId
      planPriceUsd := planPriceUsd
      startDate := startDate
      endDate := endDate
      originalEndDate := endDate
      gracePeriodEndDate := endDate.addDays policy.gracePeriodDays
      status := .active
      autoConvert := policy.autoConvertOnExpiry
      extensionCount := 0
      conversionDiscountBps := policy.earlyConversionDiscountBps
      convertedAt := none
      conversionTrigger := none
      metadata := some { metadata.getD {} with maxExtensionsAllowed := some policy.maxExtensionsAllowed } }

def maxExt (trial : TrialSubscriptionRecord) : ℚ :=
  (trial.metadata.bind (·.maxExtensionsAllowed)).getD (s.getPolicy trial.planId).maxExtensionsAllowed

def daysToAdd (additionalDays : Option ℚ) (policy : TrialPolicy) : ℚ :=
  match additionalDays with
  | some days => if days = 0 then policy.extensionBonusDays else days
  | none => policy.extensionBonusDays

def extended (trial : TrialSubscriptionRecord) (additionalDays : Option ℚ) (reason : Option String) : TrialSubscriptionRecord :=
  let policy := s.getPolicy trial.planId
  let endDate := trial.endDate.addDays (daysToAdd additionalDays policy)
  { trial with
    endDate := endDate
    gracePeriodEndDate := endDate.addDays policy.gracePeriodDays
    extensionCount := trial.extensionCount + 1
    status := .extended
    metadata :=
      match reason with
      | some reason => if reason = "" then trial.metadata else some { trial.metadata.getD {} with lastExtensionReason := some reason }
      | none => trial.metadata }

def extendTrial (trialId : String) (additionalDays : Option ℚ) (reason : Option String) :
    Option TrialSubscriptionRecord × TrialManagementService :=
  match s.trials.get trialId with
  | none => (none, s)
  | some trial =>
    if trial.status ≠ .active ∧ trial.status ≠ .extended then (none, s)
    else if s.maxExt trial ≤ trial.extensionCount then (none, s)
    else (some (s.extended trial additionalDays reason), s.save (s.extended trial additionalDays reason))

def convertTrial (now : ℤ) (trialId : String) (conversionTrigger : Option String) (appliedDiscountBps : Option ℚ) :
    Option TrialSubscriptionRecord × TrialManagementService :=
  match s.trials.get trialId with
  | none => (none, s)
  | some trial =>
    if trial.status = .converted ∨ trial.status = .cancelled then (none, s)
    else
      let converted := { trial with
        status := .converted
        convertedAt := some (some now)
        conversionTrigger := some (conversionTrigger.getD "manual_upgrade")
        conversionDiscountBps := appliedDiscountBps.getD trial.conversionDiscountBps }
      (some converted, s.save converted)

def cancellationReason (reason : Option String) : String :=
  match reason with
  | some reason => if reason = "" then "user_cancelled" else reason
  | none => "user_cancelled"

def cancelTrial (trialId : String) (reason : Option String) : Option TrialSubscriptionRecord × TrialManagementService :=
  match s.trials.get trialId with
  | none => (none, s)
  | some trial =>
    let cancelled := { trial with
      status := .cancelled
      metadata := some { trial.metadata.getD {} with cancellationReason := some (cancellationReason reason) } }
    (some cancelled, s.save cancelled)

def due (referenceDate : Date) (trial : TrialSubscriptionRecord) : Bool :=
  (trial.status = .active || trial.status = .extended) && trial.gracePeriodEndDate.Before referenceDate

def process (referenceDate : Date) (trial : TrialSubscriptionRecord) : TrialSubscriptionRecord :=
  if due referenceDate trial then
    if trial.autoConvert then
      { trial with
        status := .converted
        convertedAt := some referenceDate
        conversionTrigger := some "auto_convert_expiry" }
    else { trial with status := .expired }
  else trial

def processTrialExpirations (referenceDate : Date) :
    (List TrialSubscriptionRecord × List TrialSubscriptionRecord) × TrialManagementService :=
  let reported := s.trials.values.filter (due referenceDate)
  (((reported.filter (·.autoConvert)).map (process referenceDate), (reported.filter (!·.autoConvert)).map (process referenceDate)),
    { s with trials := s.trials.mapValues (process referenceDate) })

end TrialManagementService

inductive Call where
  | registerPolicy (policy : TrialPolicy)
  | startTrial (userId planId : String) (planPriceUsd : ℚ) (customPolicyOverrides : PartialTrialPolicy)
      (metadata : Option TrialMetadata)
  | extendTrial (trialId : String) (additionalDays : Option ℚ) (reason : Option String)
  | convertTrial (trialId : String) (conversionTrigger : Option String) (appliedDiscountBps : Option ℚ)
  | cancelTrial (trialId : String) (reason : Option String)
  | processTrialExpirations (referenceDate : Option Date)

structure World where
  service : TrialManagementService
  reported : List String

namespace World

def new : World := ⟨.new, []⟩

def step (w : World) (call : ℤ × Call) : World :=
  match call with
  | (_, .registerPolicy policy) => { w with service := w.service.registerPolicy policy }
  | (now, .startTrial userId planId planPriceUsd customPolicyOverrides metadata) =>
    { w with service := w.service.startTrial now userId planId planPriceUsd customPolicyOverrides metadata }
  | (_, .extendTrial trialId additionalDays reason) => { w with service := (w.service.extendTrial trialId additionalDays reason).2 }
  | (now, .convertTrial trialId conversionTrigger appliedDiscountBps) =>
    { w with service := (w.service.convertTrial now trialId conversionTrigger appliedDiscountBps).2 }
  | (_, .cancelTrial trialId reason) => { w with service := (w.service.cancelTrial trialId reason).2 }
  | (now, .processTrialExpirations referenceDate) =>
    let ((autoConverted, expired), service) := w.service.processTrialExpirations (referenceDate.getD (some now))
    ⟨service, w.reported ++ (autoConverted ++ expired).map (·.id)⟩

end World

end SubTrackr.Trial
