import SubTrackr.Lib.Double
import SubTrackr.Lib.Fallible

namespace SubTrackr.Billing

open Lib

abbrev Number := Double

inductive MeteredPricingModel where
  | flat | graduated | volume | package
  deriving DecidableEq

structure OverageTier where
  upToUnits : Option Number
  unitPrice : Number
  flatFee : Option Number

structure MeterPricingPlan where
  metric : String
  model : MeteredPricingModel
  (includedUnits unitPrice : Number)
  tiers : Option (List OverageTier)
  (minimumCharge maximumCharge : Option Number)

structure RatedTierLine where
  upToUnits : Option Number
  (units unitPrice flatFee amount : Number)

structure RatedMeterLine where
  metric : String
  model : MeteredPricingModel
  (unitsUsed includedUnits billableUnits amount : Number)
  tierLines : List RatedTierLine

inductive PricingErrorCode where
  | invalidPlan | invalidUsage
  deriving DecidableEq

inductive PricingError where
  | tierUnitPrice (index : Nat)
  | tierFlatFee (index : Nat)
  | unboundedNotLast
  | boundsNotAscending (index : Nat) (bound previous : Number)
  | noMetric
  | unitPrice (metric : String)
  | includedUnits (metric : String)
  | noTiers (metric : String) (model : MeteredPricingModel)
  | minimumAboveMaximum (metric : String)
  | unitCount (metric : String)
  | emptyCalculator
  deriving DecidableEq

def PricingError.code : PricingError → Option PricingErrorCode
  | unitCount _ => some .invalidUsage
  | emptyCalculator => none
  | _ => some .invalidPlan

def MeteredPricingModel.text : MeteredPricingModel → String
  | flat => "flat"
  | graduated => "graduated"
  | volume => "volume"
  | package => "package"

def PricingError.message (render : Number → String) : PricingError → String
  | tierUnitPrice index => "Tier " ++ toString index ++ " has a negative or non-finite unitPrice"
  | tierFlatFee index => "Tier " ++ toString index ++ " has a negative or non-finite flatFee"
  | unboundedNotLast => "An unbounded tier (upToUnits: null) must be the last tier"
  | boundsNotAscending index bound previous =>
    "Tier bounds must strictly ascend; tier " ++ toString index ++ " bound " ++ render bound ++ " follows " ++
      render previous
  | noMetric => "Meter pricing plan requires a metric"
  | unitPrice metric => "Meter \"" ++ metric ++ "\" has a negative or non-finite unitPrice"
  | includedUnits metric => "Meter \"" ++ metric ++ "\" has a negative or non-finite includedUnits"
  | noTiers metric model =>
    "Meter \"" ++ metric ++ "\" uses the \"" ++ model.text ++ "\" model but defines no tiers"
  | minimumAboveMaximum metric => "Meter \"" ++ metric ++ "\" has a minimumCharge above its maximumCharge"
  | unitCount metric => "Meter \"" ++ metric ++ "\" received a negative or non-finite unit count"
  | emptyCalculator => "TieredPricingCalculator requires at least one tier"

def isAmount (x : Number) : Bool := x.isFinite && !decide (x < 0)

def validateOverageTiersFrom (index : Nat) (previous : Number) : List OverageTier → Except PricingError Unit
  | [] => .ok ()
  | tier :: tiers =>
    if !isAmount tier.unitPrice then .error (.tierUnitPrice index)
    else if !tier.flatFee.all isAmount then .error (.tierFlatFee index)
    else match tier.upToUnits with
      | none => if !tiers.isEmpty then .error .unboundedNotLast else .ok ()
      | some bound =>
        if !bound.isFinite || decide (bound ≤ previous) then .error (.boundsNotAscending index bound previous)
        else validateOverageTiersFrom (index + 1) bound tiers

def validateOverageTiers (tiers : List OverageTier) : Except PricingError Unit := validateOverageTiersFrom 0 0 tiers

def validateMeterPricingPlan (plan : MeterPricingPlan) : Except PricingError Unit := do
  require (plan.metric ≠ "") .noMetric
  require (isAmount plan.unitPrice = true) (.unitPrice plan.metric)
  require (isAmount plan.includedUnits = true) (.includedUnits plan.metric)
  require (plan.model = .flat ∨ plan.tiers.getD [] ≠ []) (.noTiers plan.metric plan.model)
  match plan.tiers with
  | some tiers => validateOverageTiers tiers
  | none => pure ()
  require (∀ minimum ∈ plan.minimumCharge, ∀ maximum ∈ plan.maximumCharge, ¬ maximum < minimum)
    (.minimumAboveMaximum plan.metric)

def selectTier (tiers : List OverageTier) (units : Number) : Option OverageTier :=
  match tiers.find? fun tier => tier.upToUnits.all fun bound => decide (units ≤ bound) with
  | some tier => some tier
  | none => tiers.getLast?

structure PricingTier where
  upToUnits : Option Number
  unitPrice : Number

structure TierBreakdownLine where
  tier : PricingTier
  (unitsInTier amount : Number)

structure TieredPricingResult where
  (totalUnits totalAmount : Number)
  lines : List TierBreakdownLine

structure TieredPricingCalculator where
  tiers : List PricingTier

def TieredPricingCalculator.compare (a b : PricingTier) : Number :=
  match a.upToUnits, b.upToUnits with
  | none, _ => 1
  | some _, none => Double.ofRat (-1)
  | some x, some y => x - y

def TieredPricingCalculator.new (tiers : List PricingTier) : Except PricingError TieredPricingCalculator :=
  if tiers.isEmpty then .error .emptyCalculator
  else .ok ⟨tiers.mergeSort fun a b => !decide (0 < TieredPricingCalculator.compare a b)⟩

def breakdown (remaining lowerBound : Number) : List PricingTier → List TierBreakdownLine
  | [] => []
  | tier :: tiers =>
    if remaining ≤ 0 then []
    else
      let tierCapacity := match tier.upToUnits with
        | none => .infinity false
        | some bound => bound - lowerBound
      let unitsInTier := remaining.min tierCapacity
      { tier, unitsInTier, amount := unitsInTier * tier.unitPrice } ::
        breakdown (remaining - unitsInTier) (tier.upToUnits.getD lowerBound) tiers

def TieredPricingCalculator.calculate (calculator : TieredPricingCalculator) (totalUnits : Number) :
    TieredPricingResult :=
  let units := Double.max 0 totalUnits
  let lines := breakdown units 0 calculator.tiers
  { totalUnits := units, totalAmount := lines.foldl (fun total line => total + line.amount) 0, lines }

def sameBound : Option Number → Option Number → Bool
  | none, none => true
  | some x, some y => x.same y
  | _, _ => false

def extendLadder (unitPrice : Number) (tiers : List OverageTier) : List PricingTier :=
  let ladder := tiers.map fun tier => { upToUnits := tier.upToUnits, unitPrice := tier.unitPrice }
  let bounded := (tiers.getLast?.map (·.upToUnits)) ≠ some none
  if bounded then ladder ++ [{ upToUnits := none, unitPrice }] else ladder

def ratedLine (tiers : List OverageTier) (line : TierBreakdownLine) : RatedTierLine :=
  let source := tiers.find? fun tier => sameBound tier.upToUnits line.tier.upToUnits
  let flatFee := (source.bind (·.flatFee)).getD 0
  { upToUnits := line.tier.upToUnits
    units := line.unitsInTier
    unitPrice := line.tier.unitPrice
    flatFee
    amount := line.amount + flatFee }

def rateGraduated (billableUnits unitPrice : Number) (tiers : List OverageTier) :
    Except PricingError (List RatedTierLine) := do
  let calculator ← TieredPricingCalculator.new (extendLadder unitPrice tiers)
  let result := calculator.calculate billableUnits
  return (result.lines.filter fun line => decide (0 < line.unitsInTier)).map (ratedLine tiers)

def rateVolume (billableUnits unitPrice : Number) (tiers : List OverageTier) : List RatedTierLine :=
  let tier := selectTier tiers billableUnits
  let price := (tier.map (·.unitPrice)).getD unitPrice
  let flatFee := (tier.bind (·.flatFee)).getD 0
  [{ upToUnits := tier.bind (·.upToUnits)
     units := billableUnits
     unitPrice := price
     flatFee
     amount := billableUnits * price + flatFee }]

def flatLine (billableUnits unitPrice : Number) : RatedTierLine where
  upToUnits := none
  units := billableUnits
  unitPrice := unitPrice
  flatFee := 0
  amount := billableUnits * unitPrice

def ratePackage (billableUnits unitPrice : Number) (tiers : List OverageTier) : List RatedTierLine :=
  let tier := selectTier tiers billableUnits
  match tier.bind (·.upToUnits) with
  | none => [flatLine billableUnits unitPrice]
  | some blockSize =>
    if blockSize ≤ 0 then [flatLine billableUnits unitPrice]
    else
      let blocks := (billableUnits / blockSize).ceil
      let blockPrice := (tier.bind (·.flatFee)).getD 0
      [{ upToUnits := some blockSize
         units := billableUnits
         unitPrice := blockPrice
         flatFee := blockPrice
         amount := blocks * blockPrice }]

def rateBillable (plan : MeterPricingPlan) (billableUnits : Number) : Except PricingError (List RatedTierLine) :=
  if 0 < billableUnits then
    match plan.model with
    | .graduated => rateGraduated billableUnits plan.unitPrice (plan.tiers.getD [])
    | .volume => .ok (rateVolume billableUnits plan.unitPrice (plan.tiers.getD []))
    | .package => .ok (ratePackage billableUnits plan.unitPrice (plan.tiers.getD []))
    | .flat => .ok [flatLine billableUnits plan.unitPrice]
  else .ok []

def rateMeter (plan : MeterPricingPlan) (unitsUsed prorationFactor : Number) : Except PricingError RatedMeterLine := do
  validateMeterPricingPlan plan
  require (isAmount unitsUsed = true) (.unitCount plan.metric)
  let factor := (prorationFactor.max 0).min 1
  let includedUnits := (plan.includedUnits * factor).floor
  let billableUnits := Double.max 0 (unitsUsed - includedUnits)
  let tierLines ← rateBillable plan billableUnits
  return { metric := plan.metric
           model := plan.model
           unitsUsed
           includedUnits
           billableUnits
           amount := tierLines.foldl (fun sum line => sum + line.amount) 0
           tierLines }

/-- A tier as it is pushed on chain, where a bound of zero stands for no bound. -/
structure ContractTier where
  (upToUnits unitPrice flatFee : Number)
  deriving DecidableEq

def OverageTier.toContract (tier : OverageTier) : ContractTier where
  upToUnits := tier.upToUnits.getD 0
  unitPrice := tier.unitPrice
  flatFee := tier.flatFee.getD 0

def toContractTiers (tiers : List OverageTier) : Except PricingError (List ContractTier) := do
  validateOverageTiers tiers
  return tiers.map (·.toContract)

end SubTrackr.Billing
