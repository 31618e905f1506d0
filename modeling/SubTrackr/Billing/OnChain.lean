import SubTrackr.Billing.Rating
import SubTrackr.Metering.Tiers

namespace SubTrackr.Billing

open List Lib Metering

structure ContractTier.Is (tier : ContractTier) (stored : PriceTier) : Prop where
  upToUnits : tier.upToUnits.Is stored.upToUnits
  unitPrice : tier.unitPrice.Is stored.unitPrice
  flatFee : tier.flatFee.Is stored.flatFee

structure RatedTierLine.Is (line : RatedTierLine) (stored : TierLine) : Prop where
  upToUnits : (line.upToUnits.getD 0).Is stored.upToUnits
  units : line.units.Is stored.units
  unitPrice : line.unitPrice.Is stored.unitPrice
  amount : line.amount.Is stored.amount

def MeteredPricingModel.onChain : MeteredPricingModel → PricingModel
  | flat => .flat
  | graduated => .graduated
  | volume => .volume
  | package => .package

section Accepted

variable {tier : OverageTier} {tiers : List OverageTier} {stored : PriceTier} {ladder : List PriceTier}

theorem isAmount_iff {x : Number} {n : Int} (is : x.Is n) : isAmount x = true ↔ 0 ≤ n := by
  unfold isAmount
  rw [is.isFinite, Bool.true_and, Bool.not_eq_true', decide_eq_false_iff_not, is.lt_iff Double.zero_is, not_lt]

theorem flatFee_iff (is : tier.toContract.Is stored) : tier.flatFee.all isAmount = true ↔ 0 ≤ stored.flatFee := by
  have fee : (tier.flatFee.getD 0).Is stored.flatFee := is.flatFee
  cases given : tier.flatFee with
  | none =>
    rw [given] at fee
    have zero := fee.unique Double.zero_is
    simp [zero]
  | some flatFee =>
    rw [given] at fee
    exact isAmount_iff fee

def BoundIs : Option Number → Nat → Prop
  | none, stored => stored = 0
  | some bound, stored => bound.Is stored ∧ 0 < stored

theorem validateOverageTiersFrom_iff (same : tiers.Forall₂ (fun tier stored => tier.toContract.Is stored) ladder)
    {index : Nat} {prev : Number} {lower : Nat} (start : prev.Is lower) :
    validateOverageTiersFrom index prev tiers = .ok () ↔
      (∀ tier ∈ tiers, ∀ bound ∈ tier.upToUnits, ¬ bound.Is 0) ∧ validateTiersFrom lower ladder = true := by
  induction same generalizing index prev lower with
  | nil => simp [validateOverageTiersFrom, validateTiersFrom]
  | @cons tier stored tiers ladder is rest ih =>
    have price := isAmount_iff is.unitPrice
    have fee := flatFee_iff is
    have bound : (tier.upToUnits.getD 0).Is stored.upToUnits := is.upToUnits
    change isAmount tier.unitPrice = true ↔ 0 ≤ stored.unitPrice at price
    rw [validateTiersFrom_cons, forall_mem_cons, ← price, ← fee]
    unfold validateOverageTiersFrom
    by_cases priced : isAmount tier.unitPrice = true
    · by_cases charged : tier.flatFee.all isAmount = true
      · simp only [priced, charged, Bool.not_true, Bool.false_eq_true, if_false, true_and]
        cases given : tier.upToUnits with
        | none =>
          rw [given] at bound
          have zero : stored.upToUnits = 0 := by exact_mod_cast bound.unique Double.zero_is
          have last : tiers = [] ↔ ladder = [] := by cases rest <;> simp
          simp only [zero, true_and, Nat.not_lt_zero, false_and, or_false, ← last]
          cases tiers with
          | nil => simp
          | cons _ _ => simp
        | some upToUnits =>
          rw [given] at bound
          change upToUnits.Is stored.upToUnits at bound
          have ascends := bound.le_iff start
          simp only [Option.mem_some_iff, forall_eq', bound.isFinite, Bool.not_true, Bool.false_or,
            decide_eq_true_eq, ascends]
          have zero : upToUnits.Is 0 ↔ stored.upToUnits = 0 := by
            constructor
            · intro none
              exact_mod_cast bound.unique none
            · intro none
              rwa [none] at bound
          rw [zero]
          split
          · simp only [reduceCtorEq, false_iff]
            omega
          · rename_i above
            rw [ih bound]
            have pos : 0 < stored.upToUnits := by omega
            have beyond : lower < stored.upToUnits := by omega
            simp only [pos.ne', beyond, false_and, false_or, true_and, not_false_eq_true]
      · simp [priced, charged]
    · simp [priced]

structure OverageTier.Is (tier : OverageTier) (stored : PriceTier) : Prop where
  bound : BoundIs tier.upToUnits stored.upToUnits
  unitPrice : tier.unitPrice.Is stored.unitPrice
  flatFee : (tier.flatFee.getD 0).Is stored.flatFee

theorem accepted_is (same : tiers.Forall₂ (fun tier stored => tier.toContract.Is stored) ladder)
    (bounded : ∀ tier ∈ tiers, ∀ bound ∈ tier.upToUnits, ¬ bound.Is 0) : tiers.Forall₂ OverageTier.Is ladder := by
  induction same with
  | nil => exact .nil
  | @cons tier stored tiers ladder is rest ih =>
    obtain ⟨here, later⟩ := forall_mem_cons.mp bounded
    refine .cons ⟨?_, is.unitPrice, is.flatFee⟩ (ih later)
    have bound : (tier.upToUnits.getD 0).Is stored.upToUnits := is.upToUnits
    cases given : tier.upToUnits with
    | none =>
      rw [given] at bound
      exact_mod_cast bound.unique Double.zero_is
    | some upToUnits =>
      rw [given] at bound
      change upToUnits.Is stored.upToUnits at bound
      refine ⟨bound, Nat.pos_of_ne_zero fun zero => here upToUnits given ?_⟩
      rwa [zero] at bound

theorem BoundIs.getD {bound : Option Number} {stored : Nat} (is : BoundIs bound stored) : (bound.getD 0).Is stored := by
  cases bound with
  | none =>
    cases is
    exact Double.zero_is
  | some _ => exact is.1

theorem BoundIs.same_iff {first second : Option Number} {a b : Nat} (left : BoundIs first a) (right : BoundIs second b) :
    sameBound first second = true ↔ a = b := by
  cases first with
  | none =>
    cases left
    cases second with
    | none =>
      cases right
      simp [sameBound]
    | some _ => simpa [sameBound] using right.2.ne
  | some x =>
    cases second with
    | none =>
      cases right
      simpa [sameBound] using left.2.ne'
    | some y =>
      unfold sameBound
      rw [left.1.same_iff right.1]
      exact Int.ofNat_inj

section

variable (same : tiers.Forall₂ OverageTier.Is ladder)

include same

theorem find_is {p : OverageTier → Bool} {q : PriceTier → Bool}
    (agree : ∀ tier stored, OverageTier.Is tier stored → p tier = q stored) :
    Option.Rel OverageTier.Is (tiers.find? p) (ladder.find? q) := by
  induction same with
  | nil => exact .none
  | @cons tier stored tiers ladder is rest ih =>
    rw [find?_cons, find?_cons, agree tier stored is]
    cases q stored with
    | true => exact .some is
    | false => exact ih

theorem getLast_is : Option.Rel OverageTier.Is tiers.getLast? ladder.getLast? := by
  induction same with
  | nil => exact .none
  | cons is rest ih =>
    cases rest with
    | nil => exact .some is
    | cons next others =>
      rw [getLast?_cons_cons, getLast?_cons_cons]
      exact ih

theorem selectTier_is {billable : Number} {n : Nat} (is : billable.Is n) :
    Option.Rel OverageTier.Is (selectTier tiers billable) (Metering.selectTier ladder n) := by
  have covers : ∀ tier stored, OverageTier.Is tier stored →
      (tier.upToUnits.all fun bound => decide (billable ≤ bound)) =
        decide (stored.upToUnits = 0 ∨ n ≤ stored.upToUnits) := by
    intro tier stored known
    have bound := known.bound
    cases given : tier.upToUnits with
    | none =>
      rw [given] at bound
      have zero : stored.upToUnits = 0 := bound
      simp [zero]
    | some upToUnits =>
      rw [given] at bound
      have pos : stored.upToUnits ≠ 0 := bound.2.ne'
      have order := is.le_iff bound.1
      rw [Int.ofNat_le] at order
      simp [pos, order]
  have found := find_is same covers
  unfold selectTier Metering.selectTier
  revert found
  cases tiers.find? _ with
  | none =>
    cases ladder.find? _ with
    | none => exact fun _ => getLast_is same
    | some _ => rintro ⟨⟩
  | some _ =>
    cases ladder.find? _ with
    | none => rintro ⟨⟩
    | some _ => exact id

end

end Accepted

section Exact

variable {x y fee : Number} {a b c : Int}

theorem i128Saturating_exact (nonneg : 0 ≤ a) (room : Soroban.i128Saturating a ≤ Double.maxSafeInteger) :
    Soroban.i128Saturating a = a ∧ a ≤ Double.maxSafeInteger := by
  have wide : Double.maxSafeInteger < Soroban.i128Max := by decide
  rw [i128Saturating_eq nonneg] at room ⊢
  omega

theorem mul_is (first : x.Is a) (second : y.Is b) (nonneg : 0 ≤ a * b)
    (room : Soroban.i128Saturating (a * b) ≤ Double.maxSafeInteger) :
    (x * y).Is (Soroban.i128Saturating (a * b)) := by
  obtain ⟨exact_, safe⟩ := i128Saturating_exact nonneg room
  rw [exact_]
  exact first.mul second (Double.safe_abs nonneg safe)

theorem mul_add_is (first : x.Is a) (second : y.Is b) (charge : fee.Is c) (nonneg : 0 ≤ a * b) (charged : 0 ≤ c)
    (room : Soroban.i128Saturating (Soroban.i128Saturating (a * b) + c) ≤ Double.maxSafeInteger) :
    (x * y + fee).Is (Soroban.i128Saturating (Soroban.i128Saturating (a * b) + c)) := by
  have product : 0 ≤ Soroban.i128Saturating (a * b) := by
    rw [i128Saturating_eq nonneg]
    exact le_min nonneg (by decide)
  obtain ⟨exact_, safe⟩ := i128Saturating_exact (add_nonneg product charged) room
  rw [exact_]
  exact (mul_is first second nonneg (by omega)).add charge (Double.safe_abs (add_nonneg product charged) safe)

end Exact

section Lines

variable {tiers : List OverageTier} {ladder : List PriceTier} {billable unitPrice : Number} {n : Nat} {price : Int}

structure LinesAre (lines : List RatedTierLine) (rated : Int × List TierLine) : Prop where
  shown : lines.Forall₂ RatedTierLine.Is rated.2
  amount : (lines.foldl (fun sum (line : RatedTierLine) => sum + line.amount) (0 : Number)).Is rated.1

theorem LinesAre.single {line : RatedTierLine} {stored : TierLine} {amount : Int} (is : line.Is stored)
    (total : line.amount.Is amount) (nonneg : 0 ≤ amount) (safe : amount ≤ Double.maxSafeInteger) :
    LinesAre [line] (amount, [stored]) := by
  refine ⟨.cons is .nil, ?_⟩
  have sum := Double.zero_is.add total (by rw [zero_add]; exact Double.safe_abs nonneg safe)
  rwa [zero_add] at sum

theorem saturated_nonneg {a : Int} (nonneg : 0 ≤ a) : 0 ≤ Soroban.i128Saturating a := by
  rw [i128Saturating_eq nonneg]
  exact le_min nonneg (by decide)

theorem flatLine_is (is : billable.Is n) (rate : unitPrice.Is price) (nonneg : 0 ≤ price)
    (room : (Metering.flatLine n price).amount ≤ Double.maxSafeInteger) :
    LinesAre [flatLine billable unitPrice] ((Metering.flatLine n price).amount, [Metering.flatLine n price]) := by
  have product : 0 ≤ (n : Int) * price := mul_nonneg (Int.natCast_nonneg n) nonneg
  have amount := mul_is is rate product room
  exact .single ⟨Double.zero_is, is, rate, amount⟩ amount (saturated_nonneg product) room

theorem selected_is (same : tiers.Forall₂ OverageTier.Is ladder) (valid : validateTiers ladder = true)
    (is : billable.Is n) (rate : unitPrice.Is price) (nonneg : 0 ≤ price) :
    ∃ tier stored, (selectTier tiers billable).getD ⟨none, unitPrice, none⟩ = tier ∧
      (Metering.selectTier ladder n).getD ⟨0, price, 0⟩ = stored ∧ OverageTier.Is tier stored ∧
        0 ≤ stored.unitPrice ∧ 0 ≤ stored.flatFee := by
  have selected := selectTier_is same is
  refine ⟨_, _, rfl, rfl, ?_⟩
  cases found : Metering.selectTier ladder n with
  | none =>
    rw [found] at selected
    cases other : selectTier tiers billable with
    | some _ => rw [other] at selected; cases selected
    | none => exact ⟨⟨rfl, rate, Double.zero_is⟩, nonneg, le_rfl⟩
  | some stored =>
    rw [found] at selected
    cases other : selectTier tiers billable with
    | none => rw [other] at selected; cases selected
    | some tier =>
      rw [other] at selected
      obtain ⟨known⟩ := selected
      have mem : stored ∈ ladder := by
        unfold Metering.selectTier at found
        split at found
        · rename_i known
          cases found
          exact mem_of_find?_eq_some known
        · exact mem_of_getLast? found
      exact ⟨known, validateTiersFrom_nonneg valid stored mem⟩

theorem rateVolume_selected (billable unitPrice : Number) (tiers : List OverageTier) :
    rateVolume billable unitPrice tiers =
      let tier := (selectTier tiers billable).getD ⟨none, unitPrice, none⟩
      [{ upToUnits := tier.upToUnits, units := billable, unitPrice := tier.unitPrice, flatFee := tier.flatFee.getD 0,
         amount := billable * tier.unitPrice + tier.flatFee.getD 0 }] := by
  unfold rateVolume
  cases selectTier tiers billable <;> rfl

theorem rateUnits_volume (pos : 0 < n) (price : Int) (ladder : List PriceTier) : rateUnits .volume n price ladder =
      let tier := (Metering.selectTier ladder n).getD ⟨0, price, 0⟩
      let amount := Soroban.i128Saturating (Soroban.i128Saturating (n * tier.unitPrice) + tier.flatFee)
      (amount, [{ upToUnits := tier.upToUnits, units := n, unitPrice := tier.unitPrice, amount }]) := by
  unfold rateUnits
  rw [if_neg pos.ne']
  cases Metering.selectTier ladder n <;> rfl

theorem rateVolume_is (same : tiers.Forall₂ OverageTier.Is ladder) (valid : validateTiers ladder = true)
    (is : billable.Is n) (pos : 0 < n) (rate : unitPrice.Is price) (nonneg : 0 ≤ price)
    (room : (rateUnits .volume n price ladder).1 ≤ Double.maxSafeInteger) :
    LinesAre (rateVolume billable unitPrice tiers) (rateUnits .volume n price ladder) := by
  obtain ⟨tier, stored, selected, encoded, known, rated, charged⟩ := selected_is same valid is rate nonneg
  rw [rateUnits_volume pos, encoded] at room ⊢
  rw [rateVolume_selected, selected]
  have product : 0 ≤ (n : Int) * stored.unitPrice := mul_nonneg (Int.natCast_nonneg n) rated
  have amount := mul_add_is is known.unitPrice known.flatFee product charged room
  apply LinesAre.single
  · exact ⟨known.bound.getD, is, known.unitPrice, amount⟩
  · exact amount
  · exact saturated_nonneg (add_nonneg (saturated_nonneg product) charged)
  · exact room

theorem ratePackage_selected (billable unitPrice : Number) (tiers : List OverageTier) :
    ratePackage billable unitPrice tiers =
      let tier := (selectTier tiers billable).getD ⟨none, unitPrice, none⟩
      match tier.upToUnits with
      | none => [flatLine billable unitPrice]
      | some blockSize =>
        if blockSize ≤ 0 then [flatLine billable unitPrice]
        else [{ upToUnits := some blockSize, units := billable, unitPrice := tier.flatFee.getD 0,
                flatFee := tier.flatFee.getD 0, amount := (billable / blockSize).ceil * tier.flatFee.getD 0 }] := by
  unfold ratePackage
  cases selectTier tiers billable <;> rfl

theorem rateUnits_package (pos : 0 < n) (price : Int) (ladder : List PriceTier) : rateUnits .package n price ladder =
      let tier := (Metering.selectTier ladder n).getD ⟨0, price, 0⟩
      if tier.upToUnits = 0 then ((Metering.flatLine n price).amount, [Metering.flatLine n price])
      else
        let blocks := (n + tier.upToUnits - 1) / tier.upToUnits
        let amount := Soroban.i128Saturating (blocks * tier.flatFee)
        (amount, [{ upToUnits := tier.upToUnits, units := n, unitPrice := tier.flatFee, amount }]) := by
  unfold rateUnits
  rw [if_neg pos.ne']
  cases Metering.selectTier ladder n <;> rfl

theorem ratePackage_is (same : tiers.Forall₂ OverageTier.Is ladder) (valid : validateTiers ladder = true)
    (is : billable.Is n) (pos : 0 < n) (safe : n ≤ Double.maxSafeInteger) (rate : unitPrice.Is price)
    (nonneg : 0 ≤ price) (room : (rateUnits .package n price ladder).1 ≤ Double.maxSafeInteger) :
    LinesAre (ratePackage billable unitPrice tiers) (rateUnits .package n price ladder) := by
  obtain ⟨tier, stored, selected, encoded, known, _, charged⟩ := selected_is same valid is rate nonneg
  rw [rateUnits_package pos, encoded] at room ⊢
  rw [ratePackage_selected, selected]
  have bound := known.bound
  dsimp only at room ⊢
  cases given : tier.upToUnits with
  | none =>
    rw [given] at bound
    have zero : stored.upToUnits = 0 := bound
    rw [if_pos zero] at room ⊢
    exact flatLine_is is rate nonneg room
  | some blockSize =>
    rw [given] at bound
    obtain ⟨size, above⟩ := bound
    have open_ : ¬ blockSize ≤ 0 := by
      rw [size.le_iff Double.zero_is]
      omega
    rw [if_neg above.ne'] at room ⊢
    simp only [if_neg open_]
    have blocks := is.ceil_div size (by omega) safe (by omega)
    have whole : ((n : Int) + stored.upToUnits - 1) / stored.upToUnits =
        ((n + stored.upToUnits - 1) / stored.upToUnits : Nat) := by
      rw [Int.natCast_div, Int.natCast_sub (by omega), Int.natCast_add, Int.natCast_one]
    rw [whole] at blocks
    have product : 0 ≤ (((n + stored.upToUnits - 1) / stored.upToUnits : Nat) : Int) * stored.flatFee :=
      mul_nonneg (Int.natCast_nonneg _) charged
    have amount := mul_is blocks known.flatFee product room
    apply LinesAre.single
    · exact ⟨size, is, known.flatFee, amount⟩
    · exact amount
    · exact saturated_nonneg product
    · exact room

end Lines

section Graduated

variable {tiers : List OverageTier} {ladder : List PriceTier} {unitPrice : Number} {price : Int}

structure TierBreakdownLine.Is (line : TierBreakdownLine) (piece : PriceTier × Nat) : Prop where
  bound : BoundIs line.tier.upToUnits piece.1.upToUnits
  unitPrice : line.tier.unitPrice.Is piece.1.unitPrice
  unitsInTier : line.unitsInTier.Is piece.2
  positive : 0 < piece.2
  amount : line.amount.Is (piece.2 * piece.1.unitPrice)

def OverageTier.pricing (tier : OverageTier) : PricingTier where
  upToUnits := tier.upToUnits
  unitPrice := tier.unitPrice

theorem extendLadder_nil (unitPrice : Number) : extendLadder unitPrice [] = [{ upToUnits := none, unitPrice }] := rfl

theorem extendLadder_open {tier : OverageTier} (open_ : tier.upToUnits = none) (unitPrice : Number) :
    extendLadder unitPrice [tier] = [tier.pricing] := by
  simp [extendLadder, open_, OverageTier.pricing]

theorem extendLadder_bounded {tier : OverageTier} {bound : Number} (given : tier.upToUnits = some bound)
    (unitPrice : Number) (tiers : List OverageTier) :
    extendLadder unitPrice (tier :: tiers) = tier.pricing :: extendLadder unitPrice tiers := by
  cases tiers with
  | nil => simp [extendLadder, given, OverageTier.pricing]
  | cons next tiers =>
    unfold extendLadder
    rw [getLast?_cons_cons, map_cons]
    dsimp only
    split <;> rfl

theorem breakdown_zero {remaining : Number} (none : remaining.Is 0) (lower : Number) (tiers : List PricingTier) :
    breakdown remaining lower tiers = [] := by
  cases tiers with
  | nil => rfl
  | cons tier tiers =>
    unfold breakdown
    rw [if_pos ((none.le_iff Double.zero_is).mpr le_rfl)]

theorem breakdown_last {remaining : Number} {tier : PricingTier} {r : Nat} (left : remaining.Is r)
    (open_ : tier.upToUnits = none) (lower : Number) : breakdown remaining lower [tier] =
      if r = 0 then [] else [{ tier, unitsInTier := remaining, amount := remaining * tier.unitPrice }] := by
  have done := left.le_iff Double.zero_is
  have all : remaining.min (.infinity false) = remaining := by
    obtain ⟨_, _, rfl⟩ := left.finite_eq
    rfl
  unfold breakdown
  simp only [done, open_, all]
  split
  · rename_i zero
    rw [if_pos (by omega)]
  · rename_i some
    rw [if_neg (by omega)]
    rfl

theorem breakdown_pieces (same : tiers.Forall₂ OverageTier.Is ladder) {lower : Nat}
    (valid : validateTiersFrom lower ladder = true) (rate : unitPrice.Is price) {remaining lowerBound : Number}
    {r : Nat} (left : remaining.Is r) (safe : (r : Int) ≤ Double.maxSafeInteger) (start : lowerBound.Is lower)
    (exact_ : ∀ piece ∈ pieces price ladder r lower, |(piece.2 : Int) * piece.1.unitPrice| ≤ 2 ^ 53) :
    (breakdown remaining lowerBound (extendLadder unitPrice tiers)).Forall₂ TierBreakdownLine.Is
      (pieces price ladder r lower) := by
  induction same generalizing lower remaining lowerBound r with
  | nil =>
    rw [extendLadder_nil, breakdown_last left rfl]
    unfold pieces at exact_ ⊢
    by_cases zero : r = 0
    · rw [if_pos zero, if_neg (by omega)]
      exact .nil
    · have pos : 0 < r := Nat.pos_of_ne_zero zero
      rw [if_pos pos] at exact_
      rw [if_neg zero, if_pos pos]
      exact .cons ⟨rfl, rate, left, pos, left.mul rate (exact_ _ (.head _))⟩ .nil
  | @cons tier stored tiers ladder is rest ih =>
    have bound := is.bound
    obtain ⟨_, ⟨open_, rfl⟩ | ⟨above, later⟩⟩ := validateTiersFrom_cons.mp valid
    · cases rest
      cases given : tier.upToUnits with
      | some _ =>
        rw [given] at bound
        exact absurd open_ bound.2.ne'
      | none =>
        rw [extendLadder_open given, breakdown_last left given]
        unfold pieces at exact_ ⊢
        rw [if_pos open_] at exact_ ⊢
        by_cases zero : r = 0
        · rw [if_pos zero, if_neg (by omega)]
          exact .nil
        · have pos : 0 < r := Nat.pos_of_ne_zero zero
          rw [if_pos pos] at exact_
          rw [if_neg zero, if_pos pos]
          exact .cons ⟨is.bound, is.unitPrice, left, pos, left.mul is.unitPrice (exact_ _ (.head _))⟩ .nil
    · cases given : tier.upToUnits with
      | none =>
        rw [given] at bound
        have zero : stored.upToUnits = 0 := bound
        omega
      | some upToUnits =>
        rw [given] at bound
        obtain ⟨size, pos⟩ := bound
        rw [extendLadder_bounded given]
        by_cases zero : r = 0
        · rw [zero] at left ⊢
          rw [breakdown_zero left, pieces_zero]
          exact .nil
        · have open_ : ¬ remaining ≤ 0 := by
            rw [left.le_iff Double.zero_is]
            omega
          have units : (remaining.min (upToUnits - lowerBound)).Is (min r (stored.upToUnits - lower) : Nat) := by
            have least := size.min_sub start left (Int.natCast_nonneg r)
              (by unfold Double.maxSafeInteger at safe; omega) (by omega)
            rwa [Nat.cast_min, Int.natCast_sub above.le]
          have some : 0 < min r (stored.upToUnits - lower) := by omega
          have next : (remaining - remaining.min (upToUnits - lowerBound)).Is
              (r - min r (stored.upToUnits - lower) : Nat) := by
            rw [Int.natCast_sub (min_le_left _ _)]
            apply left.sub units
            rw [← Int.natCast_sub (min_le_left _ _)]
            exact Double.safe_abs (Int.natCast_nonneg _) (by omega)
          unfold pieces at exact_ ⊢
          unfold breakdown
          rw [if_neg (by omega : ¬ stored.upToUnits = 0)] at exact_ ⊢
          simp only [some, if_true, singleton_append, forall_mem_cons] at exact_ ⊢
          rw [if_neg open_]
          simp only [OverageTier.pricing, given, Option.getD_some]
          refine .cons ⟨?_, is.unitPrice, units, some, units.mul is.unitPrice exact_.1⟩ ?_
          · exact ⟨size, pos⟩
          · exact ih later next (by omega) size exact_.2

theorem validateTiersFrom_above {lower : Nat} (valid : validateTiersFrom lower ladder = true) :
    ∀ tier ∈ ladder, tier.upToUnits = 0 ∨ lower < tier.upToUnits := by
  induction ladder generalizing lower with
  | nil => exact fun _ mem => absurd mem not_mem_nil
  | cons first ladder ih =>
    intro tier mem
    obtain ⟨_, ⟨open_, rfl⟩ | ⟨above, later⟩⟩ := validateTiersFrom_cons.mp valid
    · rw [mem_singleton.mp mem]
      exact .inl open_
    · obtain rfl | rest := mem_cons.mp mem
      · exact .inr above
      · exact (ih later tier rest).imp_right above.trans

theorem source_fee {lower r : Nat} (valid : validateTiersFrom lower ladder = true) {piece : PriceTier × Nat}
    (mem : piece ∈ pieces price ladder r lower) :
    ((ladder.find? fun tier => decide (tier.upToUnits = piece.1.upToUnits)).map (·.flatFee)).getD 0 =
      piece.1.flatFee := by
  induction ladder generalizing lower r with
  | nil =>
    unfold pieces at mem
    split at mem
    · rw [mem_singleton.mp mem]
      rfl
    · cases mem
  | cons tier ladder ih =>
    have here {units : Nat} (single : piece ∈ if 0 < units then [(tier, units)] else []) : piece.1 = tier := by
      split at single
      · exact congrArg Prod.fst (mem_singleton.mp single)
      · cases single
    unfold pieces at mem
    obtain ⟨_, ⟨open_, rfl⟩ | ⟨above, later⟩⟩ := validateTiersFrom_cons.mp valid
    · rw [if_pos open_] at mem
      rw [here mem]
      simp
    · rw [if_neg (by omega)] at mem
      obtain first | others := mem_append.mp mem
      · rw [here first]
        simp
      · have apart : tier.upToUnits ≠ piece.1.upToUnits := by
          obtain known | flat := mem_pieces others
          · rcases validateTiersFrom_above later piece.1 known with zero | larger <;> omega
          · rw [flat]
            show tier.upToUnits ≠ 0
            omega
        rw [find?_cons_of_neg (by simpa using apart)]
        exact ih later others

theorem find_fee (same : tiers.Forall₂ OverageTier.Is ladder) {bound : Option Number} {stored : Nat}
    (is : BoundIs bound stored) :
    (((tiers.find? fun tier => sameBound tier.upToUnits bound).bind (·.flatFee)).getD 0).Is
      (((ladder.find? fun tier => decide (tier.upToUnits = stored)).map (·.flatFee)).getD 0) := by
  have agree : ∀ tier encoded, OverageTier.Is tier encoded →
      sameBound tier.upToUnits bound = decide (encoded.upToUnits = stored) := by
    intro tier encoded known
    have iff := known.bound.same_iff is
    rwa [Bool.eq_iff_iff, decide_eq_true_iff]
  have found := find_is same agree
  revert found
  cases tiers.find? _ with
  | none =>
    cases ladder.find? _ with
    | none => exact fun _ => Double.zero_is
    | some _ => rintro ⟨⟩
  | some tier =>
    cases ladder.find? _ with
    | none => rintro ⟨⟩
    | some encoded =>
      rintro ⟨known⟩
      exact known.flatFee

theorem not_pos_of_le {x : Number} (le : x ≤ 0) : ¬ 0 < x := by
  intro pos
  have above : x.le 0 = false := pos.2
  rw [show x.le 0 = true from le] at above
  cases above

def PastBound (lower : Nat) (tier : PricingTier) : Prop :=
  ∀ bound ∈ tier.upToUnits, ∃ stored : Nat, lower < stored ∧ bound.Is stored

theorem extendLadder_sorted (same : tiers.Forall₂ OverageTier.Is ladder) {lower : Nat}
    (valid : validateTiersFrom lower ladder = true) (unitPrice : Number) :
    (∀ tier ∈ extendLadder unitPrice tiers, PastBound lower tier) ∧ (extendLadder unitPrice tiers).Pairwise
      fun a b => (!decide (0 < TieredPricingCalculator.compare a b)) = true := by
  induction same generalizing lower with
  | nil => simp [extendLadder_nil, PastBound]
  | @cons tier stored tiers ladder is rest ih =>
    have bound := is.bound
    obtain ⟨_, ⟨open_, rfl⟩ | ⟨above, later⟩⟩ := validateTiersFrom_cons.mp valid
    · cases rest
      cases given : tier.upToUnits with
      | some _ =>
        rw [given] at bound
        exact absurd open_ bound.2.ne'
      | none => simp [extendLadder_open given, PastBound, OverageTier.pricing, given]
    · cases given : tier.upToUnits with
      | none =>
        rw [given] at bound
        have zero : stored.upToUnits = 0 := bound
        omega
      | some upToUnits =>
        rw [given] at bound
        obtain ⟨past, sorted⟩ := ih later
        rw [extendLadder_bounded given, forall_mem_cons, pairwise_cons]
        refine ⟨⟨?_, ?_⟩, ?_, sorted⟩
        · intro x mem
          rw [OverageTier.pricing, given, Option.mem_some_iff] at mem
          exact ⟨_, above, mem ▸ bound.1⟩
        · intro next mem x known
          obtain ⟨m, larger, is⟩ := past next mem x known
          exact ⟨m, above.trans larger, is⟩
        · intro next mem
          rw [Bool.not_eq_true', decide_eq_false_iff_not]
          apply not_pos_of_le
          unfold TieredPricingCalculator.compare
          rw [OverageTier.pricing, given]
          cases known : next.upToUnits with
          | none => exact ((Double.ofRat_is (n := -1) (by decide)).le_iff Double.zero_is).mpr (by decide)
          | some y =>
            obtain ⟨m, larger, is⟩ := past next mem y known
            exact bound.1.sub_le is Double.zero_is (by decide) (by omega)

theorem extendLadder_ne_nil (unitPrice : Number) (tiers : List OverageTier) : extendLadder unitPrice tiers ≠ [] := by
  cases tiers with
  | nil => exact cons_ne_nil _ _
  | cons tier tiers =>
    unfold extendLadder
    dsimp only
    split <;> simp

theorem rateGraduated_eq (same : tiers.Forall₂ OverageTier.Is ladder) (valid : validateTiers ladder = true)
    (billable unitPrice : Number) : rateGraduated billable unitPrice tiers =
      .ok (((breakdown (Double.max 0 billable) 0 (extendLadder unitPrice tiers)).filter fun line =>
        decide (0 < line.unitsInTier)).map (ratedLine tiers)) := by
  have sorted := mergeSort_of_pairwise (extendLadder_sorted same valid unitPrice).2
  have some : (extendLadder unitPrice tiers).isEmpty = false := by
    rw [isEmpty_eq_false_iff]
    exact extendLadder_ne_nil unitPrice tiers
  unfold rateGraduated TieredPricingCalculator.new
  rw [some, sorted]
  rfl

theorem foldl_amount {lines : List RatedTierLine} {stored : List TierLine}
    (shown : lines.Forall₂ RatedTierLine.Is stored) (nonneg : ∀ line ∈ stored, 0 ≤ line.amount) {sum : Number}
    {total : Int} (start : sum.Is total) (pos : 0 ≤ total)
    (safe : total + (stored.map (·.amount)).sum ≤ Double.maxSafeInteger) :
    (lines.foldl (fun sum (line : RatedTierLine) => sum + line.amount) sum).Is
      (total + (stored.map (·.amount)).sum) := by
  induction shown generalizing sum total with
  | nil => simpa using start
  | @cons line first lines stored is rest ih =>
    obtain ⟨here, later⟩ := forall_mem_cons.mp nonneg
    have others : 0 ≤ (stored.map (·.amount)).sum := by
      apply sum_nonneg
      intro amount mem
      obtain ⟨known, member, rfl⟩ := mem_map.mp mem
      exact later known member
    rw [map_cons, sum_cons, ← add_assoc] at safe ⊢
    rw [foldl_cons]
    exact ih later (start.add is.amount (Double.safe_abs (by omega) (by omega))) (by omega) safe

theorem ratedLine_is (same : tiers.Forall₂ OverageTier.Is ladder) (valid : validateTiers ladder = true) {n : Nat}
    {line : TierBreakdownLine} {piece : PriceTier × Nat} (is : line.Is piece) (mem : piece ∈ pieces price ladder n 0)
    (nonneg : 0 ≤ price) (room : (pieceLine piece).amount ≤ Double.maxSafeInteger) :
    (ratedLine tiers line).Is (pieceLine piece) := by
  obtain ⟨cost, charged⟩ := pieceCost_nonneg valid nonneg n piece mem
  have fee := find_fee same is.bound
  rw [source_fee valid mem] at fee
  obtain ⟨capped, small⟩ := i128Saturating_exact (add_nonneg (saturated_nonneg cost) charged) room
  obtain ⟨exact_, _⟩ := i128Saturating_exact cost (by omega)
  refine ⟨is.bound.getD, is.unitsInTier, is.unitPrice, ?_⟩
  show (line.amount + _).Is (Soroban.i128Saturating (Soroban.i128Saturating (piece.2 * piece.1.unitPrice) + piece.1.flatFee))
  rw [capped, exact_]
  rw [exact_] at small
  exact is.amount.add fee (Double.safe_abs (add_nonneg cost charged) small)

theorem breakdown_kept {lines : List TierBreakdownLine} {split : List (PriceTier × Nat)}
    (is : lines.Forall₂ TierBreakdownLine.Is split) :
    (lines.filter fun line => decide (0 < line.unitsInTier)) = lines := by
  induction is with
  | nil => rfl
  | cons is _ ih =>
    have some := Double.zero_is.lt_iff is.unitsInTier
    have pos := is.positive
    rw [filter_cons_of_pos, ih]
    exact decide_eq_true (some.mpr (by omega))

theorem rateGraduated_is (same : tiers.Forall₂ OverageTier.Is ladder) (valid : validateTiers ladder = true)
    {billable : Number} {n : Nat} (is : billable.Is n) (safe : n ≤ Double.maxSafeInteger) (rate : unitPrice.Is price)
    (nonneg : 0 ≤ price) (room : (rateUnits .graduated n price ladder).1 ≤ Double.maxSafeInteger) :
    ∃ lines, rateGraduated billable unitPrice tiers = .ok lines ∧ LinesAre lines (rateUnits .graduated n price ladder) := by
  have costs := pieceCost_nonneg valid nonneg n
  have wide : Double.maxSafeInteger < Soroban.i128Max := by decide
  have pos : ∀ line ∈ (pieces price ladder n 0).map pieceLine, 0 ≤ line.amount := by
    intro line mem
    obtain ⟨piece, known, rfl⟩ := mem_map.mp mem
    exact saturated_nonneg (add_nonneg (saturated_nonneg (costs piece known).1) (costs piece known).2)
  rw [rateUnits_graduated, foldl_addLine _ pos] at room ⊢
  have total : (((pieces price ladder n 0).map pieceLine).map (·.amount)).sum ≤ Double.maxSafeInteger := by
    dsimp only at room
    omega
  have each : ∀ piece ∈ pieces price ladder n 0, (pieceLine piece).amount ≤ Double.maxSafeInteger := by
    intro piece mem
    refine (single_le_sum ?_ _ (mem_map_of_mem (mem_map_of_mem mem))).trans total
    intro amount member
    obtain ⟨line, known, rfl⟩ := mem_map.mp member
    exact pos line known
  have exact_ : ∀ piece ∈ pieces price ladder n 0, |(piece.2 : Int) * piece.1.unitPrice| ≤ 2 ^ 53 := by
    intro piece mem
    have small := each piece mem
    rw [pieceLine_amount (costs piece mem).1 (costs piece mem).2] at small
    unfold pieceCost at small
    exact Double.safe_abs (costs piece mem).1 (by have := (costs piece mem).2; omega)
  have units : (Double.max 0 billable).Is n := by
    have larger := Double.zero_is.max is
    rwa [max_eq_right (Int.natCast_nonneg n)] at larger
  have split := breakdown_pieces same valid rate units safe Double.zero_is exact_
  have shown : ((breakdown (Double.max 0 billable) 0 (extendLadder unitPrice tiers)).map (ratedLine tiers)).Forall₂
      RatedTierLine.Is ((pieces price ladder n 0).map pieceLine) := by
    rw [forall₂_map_left_iff, forall₂_map_right_iff]
    refine forall₂_iff_zip.mpr ⟨split.length_eq, fun {line piece} pair => ?_⟩
    have mem := (of_mem_zip pair).2
    exact ratedLine_is same valid (forall₂_zip split pair) mem nonneg (each piece mem)
  refine ⟨_, rateGraduated_eq same valid billable unitPrice, ?_⟩
  rw [breakdown_kept split]
  refine ⟨shown, ?_⟩
  have sum := foldl_amount shown pos Double.zero_is le_rfl (by rwa [zero_add])
  rwa [zero_add, ← min_eq_left (total.trans wide.le)] at sum

end Graduated

section Agreement

variable {plan : MeterPricingPlan} {ladder : List PriceTier} {unitPrice : Int} {n : Nat}

theorem validateMeterPricingPlan_ok (accepted : validateMeterPricingPlan plan = .ok ()) :
    isAmount plan.unitPrice = true ∧ validateOverageTiers (plan.tiers.getD []) = .ok () := by
  unfold validateMeterPricingPlan at accepted
  cases given : plan.tiers with
  | none =>
    simp only [bind_eq_ok, require_eq_ok, given] at accepted
    obtain ⟨_, _, _, price, _⟩ := accepted
    exact ⟨price, rfl⟩
  | some tiers =>
    simp only [bind_eq_ok, require_eq_ok, given] at accepted
    obtain ⟨_, _, _, price, _, _, _, _, _, ladder, _⟩ := accepted
    exact ⟨price, ladder⟩

theorem rateMeter_eq {usage factor includedUnits : Number} {lines : List RatedTierLine}
    (accepted : validateMeterPricingPlan plan = .ok ()) (counted : isAmount usage = true)
    (factored : (plan.includedUnits * (factor.max 0).min 1).floor = includedUnits)
    (rated : rateBillable plan (Double.max 0 (usage - includedUnits)) = .ok lines) :
    ∃ line, rateMeter plan usage factor = .ok line ∧ line.tierLines = lines ∧
      line.amount = lines.foldl (fun sum line => sum + line.amount) 0 := by
  unfold rateMeter
  rw [accepted, ok_bind, (require_eq_ok _ _ ()).mpr counted, ok_bind]
  dsimp only
  rw [factored, rated, ok_bind]
  exact ⟨_, rfl, rfl, rfl⟩

theorem rateBillable_is (same : (plan.tiers.getD []).Forall₂ OverageTier.Is ladder)
    (valid : validateTiers ladder = true) {billable : Number} (is : billable.Is n)
    (safe : n ≤ Double.maxSafeInteger) (rate : plan.unitPrice.Is unitPrice) (nonneg : 0 ≤ unitPrice)
    (room : (rateUnits plan.model.onChain n unitPrice ladder).1 ≤ Double.maxSafeInteger) :
    ∃ lines, rateBillable plan billable = .ok lines ∧
      LinesAre lines (rateUnits plan.model.onChain n unitPrice ladder) := by
  have some := Double.zero_is.lt_iff is
  unfold rateBillable
  simp only [some]
  by_cases zero : n = 0
  · rw [if_neg (by omega)]
    unfold rateUnits
    rw [if_pos zero]
    exact ⟨[], rfl, .nil, Double.zero_is⟩
  · have pos : 0 < n := Nat.pos_of_ne_zero zero
    rw [if_pos (by omega)]
    cases model : plan.model with
    | flat =>
      rw [model] at room
      have rated : rateUnits .flat n unitPrice ladder =
          ((Metering.flatLine n unitPrice).amount, [Metering.flatLine n unitPrice]) := by
        unfold rateUnits
        rw [if_neg zero]
      change (rateUnits .flat n unitPrice ladder).1 ≤ _ at room
      change ∃ lines, _ ∧ LinesAre lines (rateUnits .flat n unitPrice ladder)
      rw [rated] at room ⊢
      exact ⟨_, rfl, flatLine_is is rate nonneg room⟩
    | graduated =>
      rw [model] at room
      exact rateGraduated_is same valid is safe rate nonneg room
    | volume =>
      rw [model] at room
      exact ⟨_, rfl, rateVolume_is same valid is pos rate nonneg room⟩
    | package =>
      rw [model] at room
      exact ⟨_, rfl, ratePackage_is same valid is pos safe rate nonneg room⟩

/-- The backend and the chain bill the same amount by the same lines, as long as the usage and the amount are integers
that a number of JavaScript holds. The two accept the same ladders, apart from one whose last bound is zero. -/
theorem ratings_agree :
    (∀ (plan : MeterPricingPlan) (ladder : List PriceTier) (unitPrice : Int) (included used : Nat) (usage : Number),
      validateMeterPricingPlan plan = .ok () →
      (∃ encoded, toContractTiers (plan.tiers.getD []) = .ok encoded ∧ encoded.Forall₂ ContractTier.Is ladder) →
      plan.unitPrice.Is unitPrice → plan.includedUnits.Is included → usage.Is used → used ≤ Double.maxSafeInteger →
      (rateUnits plan.model.onChain (billableUnits used included) unitPrice ladder).1 ≤ Double.maxSafeInteger →
      ∃ line, rateMeter plan usage 1 = .ok line ∧
        line.amount.Is (rateUnits plan.model.onChain (billableUnits used included) unitPrice ladder).1 ∧
        line.tierLines.Forall₂ RatedTierLine.Is
          (rateUnits plan.model.onChain (billableUnits used included) unitPrice ladder).2) ∧
    ∀ (tiers : List OverageTier) (ladder : List PriceTier),
      (tiers.map (·.toContract)).Forall₂ ContractTier.Is ladder →
      (validateOverageTiers tiers = .ok () ↔
        (∀ tier ∈ tiers, ∀ bound ∈ tier.upToUnits, ¬ bound.Is 0) ∧ validateTiers ladder = true) := by
  constructor
  · rintro plan ladder unitPrice included used usage accepted ⟨encoded, pushed, stored⟩ rate allowance count safe room
    obtain ⟨priced, ladderOk⟩ := validateMeterPricingPlan_ok accepted
    unfold toContractTiers at pushed
    rw [ladderOk, ok_bind, pure_eq_ok] at pushed
    rw [← pushed, forall₂_map_left_iff] at stored
    obtain ⟨bounded, valid⟩ := (validateOverageTiersFrom_iff stored Double.zero_is).mp ladderOk
    have same := accepted_is stored bounded
    have nonneg := (isAmount_iff rate).mp priced
    have counted := (isAmount_iff count).mpr (Int.natCast_nonneg used)
    have one : (Double.min (Double.max 1 0) 1).Is 1 :=
      ((Double.ofRat_is (n := 1) (by decide)).max Double.zero_is).min (Double.ofRat_is (n := 1) (by decide))
    have included_ := allowance.mul_one_floor one
    have billable : (Double.max 0 (usage - (plan.includedUnits * (Double.min (Double.max 1 0) 1)).floor)).Is
        (billableUnits used included) := by
      have shifted := count.max_zero_sub included_ (by unfold Double.maxSafeInteger at safe; omega)
      have clamped : max 0 ((used : Int) - included) = (used - included : Nat) := by omega
      rwa [clamped] at shifted
    have small : (billableUnits used included : Int) ≤ Double.maxSafeInteger := by
      unfold billableUnits
      omega
    obtain ⟨lines, rated, shown, amount⟩ := rateBillable_is same valid billable small rate nonneg room
    obtain ⟨line, run, tierLines, total⟩ := rateMeter_eq accepted counted rfl rated
    refine ⟨line, run, ?_, tierLines ▸ shown⟩
    rw [total]
    exact amount
  · intro tiers ladder stored
    rw [forall₂_map_left_iff] at stored
    exact validateOverageTiersFrom_iff stored Double.zero_is

def apiCalls : MeterPricingPlan where
  metric := "api_calls"
  model := .graduated
  includedUnits := 100
  unitPrice := 3
  tiers := some [⟨some 10, 5, none⟩, ⟨some 25, 4, some 7⟩]
  minimumCharge := none
  maximumCharge := none

theorem ratings_agree_ladder : (∃ line, rateMeter apiCalls 150 1 = .ok line ∧ line.amount.Is 192 ∧
      line.tierLines.Forall₂ RatedTierLine.Is [⟨10, 10, 5, 50⟩, ⟨25, 15, 4, 67⟩, ⟨0, 25, 3, 75⟩]) ∧
    (validateOverageTiers [⟨none, 2, some 1⟩] = .ok () ↔
      (∀ tier ∈ ([⟨none, 2, some 1⟩] : List OverageTier), ∀ bound ∈ tier.upToUnits, ¬ bound.Is 0) ∧
        validateTiers [⟨0, 2, 1⟩] = true) := by
  constructor
  · have rated : rateUnits .graduated (billableUnits 150 100) 3 [⟨10, 5, 0⟩, ⟨25, 4, 7⟩] =
        (192, [⟨10, 10, 5, 50⟩, ⟨25, 15, 4, 67⟩, ⟨0, 25, 3, 75⟩]) := by decide
    have pushed : toContractTiers (apiCalls.tiers.getD []) = .ok [⟨10, 5, 0⟩, ⟨25, 4, 7⟩] := by decide +kernel
    have agreed := ratings_agree.1 apiCalls [⟨10, 5, 0⟩, ⟨25, 4, 7⟩] 3 100 150 150 (by decide +kernel)
      ⟨_, pushed, .cons ⟨by decide +kernel, by decide +kernel, by decide +kernel⟩
        (.cons ⟨by decide +kernel, by decide +kernel, by decide +kernel⟩ .nil)⟩
      (by decide +kernel) (by decide +kernel) (by decide +kernel) (by decide) (by decide)
    rwa [show apiCalls.model.onChain = .graduated from rfl, rated] at agreed
  · exact ratings_agree.2 _ _ (.cons ⟨by decide +kernel, by decide +kernel, by decide +kernel⟩ .nil)

def bulk : MeterPricingPlan where
  metric := "bytes"
  model := .flat
  includedUnits := 0
  unitPrice := 134217729
  tiers := none
  minimumCharge := none
  maximumCharge := none

theorem ratings_differ : validateMeterPricingPlan bulk = .ok () ∧
    (rateUnits .flat (billableUnits 134217729 0) 134217729 []).1 = 134217729 * 134217729 ∧
    (rateMeter bulk 134217729 1).toOption.map (fun line => decide (line.amount.Is (134217729 * 134217729))) =
      some false ∧
    validateOverageTiers [⟨some 0, 2, none⟩] = .error (.boundsNotAscending 0 0 0) ∧
    validateTiers [⟨0, 2, 0⟩] = true := by
  refine ⟨?_, ?_, ?_, ?_, ?_⟩ <;> decide +kernel

end Agreement

end SubTrackr.Billing
