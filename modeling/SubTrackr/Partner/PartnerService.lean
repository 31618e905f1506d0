import SubTrackr.Lib.InsertionMap
import Mathlib.Algebra.Order.Ring.Rat

namespace SubTrackr.Partner

open Lib

inductive SplitType where
  | percentage | fixed_amount | tiered_waterfall
  deriving DecidableEq

inductive PartnerPayoutSchedule where
  | instant | daily | weekly | threshold
  deriving DecidableEq

structure SplitTier where
  (threshold splitPercentage : ℚ)
  fixedAmount : Option ℚ
  priority : ℚ

structure SplitConfiguration where
  (subscriptionId partnerId : String)
  splitType : SplitType
  payoutSchedule : PartnerPayoutSchedule
  percentage : Option ℚ := none
  fixedAmount : Option ℚ := none
  tiers : Option (List SplitTier) := none
  isActive : Bool

structure PartialSplitConfiguration where
  (subscriptionId partnerId : Option String)
  splitType : Option SplitType
  payoutSchedule : Option PartnerPayoutSchedule
  (percentage fixedAmount : Option ℚ)
  tiers : Option (List SplitTier)

def SplitConfiguration.toPartial (config : SplitConfiguration) : PartialSplitConfiguration :=
  ⟨some config.subscriptionId, some config.partnerId, some config.splitType, some config.payoutSchedule, config.percentage,
    config.fixedAmount, config.tiers⟩

structure Split where
  partnerId : String
  (amount percentage : ℚ)

structure SplitResult where
  splits : List Split
  (platformRevenue totalSplit : ℚ)

structure SplitValidationResult where
  isValid : Bool
  errors : List String

def total (splits : List Split) : ℚ := (splits.map (·.amount)).sum

namespace SplitEngine

def calculatePercentageSplit (config : SplitConfiguration) (grossAmount : ℚ) : SplitResult :=
  let percentage := config.percentage.getD 0
  let clampedPercentage := min 100 (max 0 percentage)
  let partnerAmount := grossAmount * (clampedPercentage / 100)
  { splits := [⟨config.partnerId, partnerAmount, clampedPercentage⟩]
    platformRevenue := grossAmount - partnerAmount
    totalSplit := partnerAmount }

def calculateFixedAmountSplit (config : SplitConfiguration) (grossAmount : ℚ) : SplitResult :=
  let fixedAmount := min (config.fixedAmount.getD 0) grossAmount
  { splits := [⟨config.partnerId, fixedAmount, if grossAmount > 0 then fixedAmount / grossAmount * 100 else 0⟩]
    platformRevenue := grossAmount - fixedAmount
    totalSplit := fixedAmount }

def tierSplits (partnerId : String) : (remaining : ℚ) → List SplitTier → List Split
  | _, [] => []
  | remaining, tier :: sortedTiers =>
    if remaining ≤ 0 then []
    else
      let tierAmount := min (tier.fixedAmount.getD (remaining * (tier.splitPercentage / 100))) remaining
      if tierAmount ≤ 0 then tierSplits partnerId remaining sortedTiers
      else ⟨partnerId, tierAmount, tier.splitPercentage⟩ :: tierSplits partnerId (remaining - tierAmount) sortedTiers

def calculateTieredWaterfall (config : SplitConfiguration) (grossAmount : ℚ) : SplitResult :=
  let tiers := config.tiers.getD []
  if tiers.length = 0 then ⟨[], grossAmount, 0⟩
  else
    let sortedTiers := tiers.insertionSort fun a b => a.threshold ≤ b.threshold
    let splits := tierSplits config.partnerId grossAmount sortedTiers
    { splits := splits
      platformRevenue := grossAmount - total splits
      totalSplit := total splits }

def calculateSplit (config : SplitConfiguration) (grossAmount : ℚ) : SplitResult :=
  if grossAmount ≤ 0 then ⟨[], grossAmount, 0⟩
  else
    match config.splitType with
    | .percentage => calculatePercentageSplit config grossAmount
    | .fixed_amount => calculateFixedAmountSplit config grossAmount
    | .tiered_waterfall => calculateTieredWaterfall config grossAmount

def priority (config : SplitConfiguration) : ℚ := ((config.tiers.getD []).head?.map (·.priority)).getD 0

def sorted (configurations : List SplitConfiguration) : List SplitConfiguration :=
  configurations.insertionSort fun a b => priority a ≤ priority b

def waterfallSplits : (remaining : ℚ) → List SplitConfiguration → List Split
  | _, [] => []
  | remaining, config :: sorted =>
    if remaining ≤ 0 then []
    else
      let result := calculateSplit config remaining
      result.splits ++ waterfallSplits (remaining - result.totalSplit) sorted

def executeWaterfall (configurations : List SplitConfiguration) (grossAmount : ℚ) : SplitResult :=
  let allSplits := waterfallSplits grossAmount (sorted configurations)
  { splits := allSplits
    platformRevenue := grossAmount - total allSplits
    totalSplit := total allSplits }

def percentageErrors (config : PartialSplitConfiguration) : List String :=
  match config.percentage with
  | none => ["Percentage is required for percentage splits"]
  | some percentage => if percentage < 0 ∨ percentage > 100 then ["Percentage must be between 0 and 100"] else []

def fixedAmountErrors (config : PartialSplitConfiguration) : List String :=
  match config.fixedAmount with
  | none => ["Fixed amount is required for fixed amount splits"]
  | some fixedAmount => if fixedAmount < 0 then ["Fixed amount must be non-negative"] else []

def tierErrors (config : PartialSplitConfiguration) : List String :=
  let tiers := config.tiers.getD []
  if tiers.length = 0 then ["At least one tier is required for tiered waterfall splits"]
  else
    (if (tiers.map (·.splitPercentage)).sum > 100 then ["Total tier percentage cannot exceed 100"] else []) ++
      if (tiers.map (·.priority)).dedup.length ≠ tiers.length then ["Tier priorities must be unique"] else []

def validateSplitConfig (config : PartialSplitConfiguration) : SplitValidationResult :=
  let errors :=
    (if config.splitType.isNone then ["Split type is required"] else []) ++
      (if config.partnerId.getD "" = "" then ["Partner ID is required"] else []) ++
      (if config.subscriptionId.getD "" = "" then ["Subscription ID is required"] else []) ++
      (if config.splitType = some .percentage then percentageErrors config else []) ++
      (if config.splitType = some .fixed_amount then fixedAmountErrors config else []) ++
      (if config.splitType = some .tiered_waterfall then tierErrors config else [])
  ⟨errors.length = 0, errors⟩

end SplitEngine

namespace BackendPartnerService

def addSplit (pendingByPartner : InsertionMap String ℚ) (split : Split) : InsertionMap String ℚ :=
  let current := (pendingByPartner.get split.partnerId).getD 0
  pendingByPartner.set split.partnerId (current + split.amount)

def addConfig (grossAmount : ℚ) (pendingByPartner : InsertionMap String ℚ) (config : SplitConfiguration) :
    InsertionMap String ℚ :=
  if !config.isActive then pendingByPartner
  else (SplitEngine.calculateSplit config grossAmount).splits.foldl addSplit pendingByPartner

def aggregatePendingPayouts (configurations : List SplitConfiguration) (grossAmount : ℚ) : InsertionMap String ℚ :=
  configurations.foldl (addConfig grossAmount) ∅

end BackendPartnerService

end SubTrackr.Partner
