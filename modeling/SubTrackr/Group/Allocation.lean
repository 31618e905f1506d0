import SubTrackr.Lib.InsertionMap
import SubTrackr.Lib.Rounding
import Mathlib.Data.Rat.Floor
import Mathlib.Data.String.Basic

namespace SubTrackr.Group

open Lib

structure GroupMember where
  address : String
  usageUnits : ℚ
  deriving DecidableEq

structure GroupBillingLineItem where
  memberAddress : String
  amount : ℚ
  description : String
  deriving DecidableEq

structure GroupChargeResult where
  breakdown : List GroupBillingLineItem
  chargedAt : ℤ
  deriving DecidableEq

structure SubscriptionGroup where
  (groupId owner : String)
  members : List GroupMember
  charges : List GroupChargeResult

inductive BillingAllocationStrategy
  | equal
  | usageWeighted
  | customWeights
  | ownerPays
  deriving DecidableEq

abbrev CustomBillingWeights := OrderedMap String ℚ

structure MemberBillingAllocationItem where
  memberAddress : String
  (amount weight sharePercent : ℚ)
  description : String

structure MemberBillingAllocation where
  groupId : String
  strategy : BillingAllocationStrategy
  totalAmount : ℚ
  items : List MemberBillingAllocationItem

def roundCents (value : ℚ) : ℚ := Rounding.halfUp 100 value

def toFixed4 (value : ℚ) : ℚ := Rounding.halfUp 10000 value

def strategyDescription : BillingAllocationStrategy → String
  | .equal => "Equal share of group bill"
  | .usageWeighted => "usage-weighted share of group bill"
  | .customWeights => "custom-weighted share of group bill"
  | .ownerPays => "owner-paid group bill"

/-- The weights by address. Where an address is set again, the order of a `Map` differs, which no sum depends on. -/
abbrev Weights := OrderedMap String ℚ

namespace Weights

def total (weights : Weights) : ℚ := (weights.entries.map Sigma.snd).sum

def of (weights : Weights) (member : GroupMember) : ℚ := (weights.lookup member.address).getD 0

end Weights

def setAll (weight : GroupMember → ℚ) (members : List GroupMember) : Weights :=
  members.foldl (fun weights member => weights.insert member.address (weight member)) ∅

def setCustom (customWeights : CustomBillingWeights) (weights : Weights) (member : GroupMember) : Except String Weights :=
  match customWeights.lookup member.address with
  | none => .error ("Missing custom weight for member " ++ member.address)
  | some weight =>
    if weight < 0 then .error ("Custom weight for " ++ member.address ++ " must be non-negative")
    else .ok (weights.insert member.address weight)

def resolveWeights (group : SubscriptionGroup) (strategy : BillingAllocationStrategy)
    (customWeights : Option CustomBillingWeights) : Except String Weights :=
  match strategy with
  | .ownerPays => .ok (setAll (fun member => if member.address = group.owner then 1 else 0) group.members)
  | .equal => .ok (setAll (fun _ => 1) group.members)
  | .usageWeighted =>
    if (group.members.map fun m => max m.usageUnits 0).sum ≤ 0 then .ok (setAll (fun _ => 1) group.members)
    else .ok (setAll (fun member => max member.usageUnits 0) group.members)
  | .customWeights =>
    match customWeights.filter fun customWeights => customWeights.entries ≠ [] with
    | none => .error "custom_weights strategy requires a non-empty customWeights map"
    | some customWeights => do
      let weights ← group.members.foldlM (setCustom customWeights) ∅
      if weights.total ≤ 0 then .error "custom_weights must sum to a positive total" else .ok weights

def compareMembers (owner : String) (a b : GroupMember) : ℤ :=
  if a.address = owner then 1 else if b.address = owner then -1 else 0

/-- The sort is stable: it moves a member ahead of an earlier one only where their comparison is negative. -/
def ordered (group : SubscriptionGroup) : List GroupMember :=
  group.members.insertionSort fun a b => ¬compareMembers group.owner b a < 0

def itemFor (group : SubscriptionGroup) (strategy : BillingAllocationStrategy) (weights : Weights) (member : GroupMember)
    (amount : ℚ) : MemberBillingAllocationItem where
  memberAddress := member.address
  amount
  weight := weights.of member
  sharePercent := toFixed4 (if 0 < weights.total then weights.of member / weights.total * 100 else 0)
  description :=
    if strategy = .ownerPays ∧ member.address = group.owner then "Owner pays full group bill"
    else if strategy = .ownerPays then "Covered by owner"
    else strategyDescription strategy

def allocateFrom (group : SubscriptionGroup) (strategy : BillingAllocationStrategy) (weights : Weights) (totalAmount : ℚ) :
    ℚ → List GroupMember → List MemberBillingAllocationItem
  | _, [] => []
  | allocated, member :: rest =>
    if totalAmount = 0 ∨ weights.total = 0 then
      itemFor group strategy weights member 0 :: allocateFrom group strategy weights totalAmount allocated rest
    else if rest.isEmpty then
      itemFor group strategy weights member (roundCents (totalAmount - allocated)) ::
        allocateFrom group strategy weights totalAmount allocated rest
    else
      let amount := roundCents (totalAmount * weights.of member / weights.total)
      itemFor group strategy weights member amount ::
        allocateFrom group strategy weights totalAmount (roundCents (allocated + amount)) rest

def allocateMemberBilling (group : SubscriptionGroup) (totalAmount : ℚ) (strategy : BillingAllocationStrategy)
    (customWeights : Option CustomBillingWeights) : Except String MemberBillingAllocation := do
  if totalAmount < 0 then throw "totalAmount must be non-negative"
  if group.members.isEmpty then throw "Group has no members to allocate billing to"
  let weights ← resolveWeights group strategy customWeights
  if weights.total ≤ 0 ∧ strategy ≠ .ownerPays then throw "Allocation weights must sum to a positive total"
  pure
    { groupId := group.groupId
      strategy
      totalAmount
      items := allocateFrom group strategy weights totalAmount 0 (ordered group) }

end SubTrackr.Group
