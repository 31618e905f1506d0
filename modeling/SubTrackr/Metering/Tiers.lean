import SubTrackr.Metering.EntryPoints
import SubTrackr.Lib.Sums
import Mathlib.Algebra.Order.BigOperators.Group.Finset

namespace SubTrackr.Metering

open List Lib Soroban

def PriceTier.holds (tier : PriceTier) (k : Nat) : Bool := decide (tier.upToUnits = 0 ∨ k ≤ tier.upToUnits)

def tierAt (tiers : List PriceTier) (k : Nat) : Nat := tiers.findIdx (·.holds k)

/-- The price of the `k`-th billable unit. Units past a bounded ladder have the flat price. -/
def priceAt (tiers : List PriceTier) (unitPrice : Int) (k : Nat) : Int :=
  ((tiers.find? (·.holds k)).map (·.unitPrice)).getD unitPrice

def feeAt (tiers : List PriceTier) (i : Nat) : Int := (tiers[i]?.map (·.flatFee)).getD 0

/-- The prices of `units`, one at a time, and the fee of each tier that one of them falls in. -/
def priceOf (tiers : List PriceTier) (unitPrice : Int) (units : Finset Nat) : Int :=
  ∑ k ∈ units, priceAt tiers unitPrice k + ∑ i ∈ units.image (tierAt tiers), feeAt tiers i

def perUnit (tiers : List PriceTier) (unitPrice : Int) (n : Nat) : Int := priceOf tiers unitPrice (Finset.Icc 1 n)

section Ladder

variable {tier : PriceTier} {tiers : List PriceTier} {unitPrice : Int} {lower r : Nat}

theorem priceOf_nil (unitPrice : Int) (units : Finset Nat) : priceOf [] unitPrice units = units.card * unitPrice := by
  simp [priceOf, priceAt, feeAt]

theorem tierAt_cons (tier : PriceTier) (tiers : List PriceTier) (k : Nat) :
    tierAt (tier :: tiers) k = if tier.holds k then 0 else tierAt tiers k + 1 := by
  unfold tierAt
  rw [findIdx_cons]
  cases tier.holds k <;> rfl

theorem priceAt_cons (tier : PriceTier) (tiers : List PriceTier) (unitPrice : Int) (k : Nat) :
    priceAt (tier :: tiers) unitPrice k = if tier.holds k then tier.unitPrice else priceAt tiers unitPrice k := by
  unfold priceAt
  rw [find?_cons]
  cases tier.holds k <;> rfl

theorem image_tierAt_cons (tier : PriceTier) (tiers : List PriceTier) (units : Finset Nat) :
    units.image (tierAt (tier :: tiers)) =
      (units.filter (tier.holds · = true)).image (fun _ => 0) ∪
        ((units.filter (¬ tier.holds · = true)).image (tierAt tiers)).image Nat.succ := by
  ext i
  simp only [Finset.mem_image, Finset.mem_union, Finset.mem_filter, tierAt_cons]
  constructor
  · rintro ⟨k, mem, same⟩
    by_cases held : tier.holds k = true
    · rw [if_pos held] at same
      exact .inl ⟨k, ⟨mem, held⟩, same⟩
    · rw [if_neg held] at same
      exact .inr ⟨tierAt tiers k, ⟨k, ⟨mem, held⟩, rfl⟩, same⟩
  · rintro (⟨k, ⟨mem, held⟩, same⟩ | ⟨_, ⟨k, ⟨mem, held⟩, rfl⟩, same⟩)
    · exact ⟨k, mem, by rwa [if_pos held]⟩
    · exact ⟨k, mem, by rwa [if_neg held]⟩

theorem priceOf_cons (tier : PriceTier) (tiers : List PriceTier) (unitPrice : Int) (units : Finset Nat) :
    priceOf (tier :: tiers) unitPrice units =
      (units.filter (tier.holds · = true)).card * tier.unitPrice +
        (if (units.filter (tier.holds · = true)).Nonempty then tier.flatFee else 0) +
        priceOf tiers unitPrice (units.filter (¬ tier.holds · = true)) := by
  have prices : ∑ k ∈ units, priceAt (tier :: tiers) unitPrice k =
      (units.filter (tier.holds · = true)).card * tier.unitPrice +
        ∑ k ∈ units.filter (¬ tier.holds · = true), priceAt tiers unitPrice k := by
    simp only [priceAt_cons]
    rw [Finset.sum_ite, Finset.sum_const, nsmul_eq_mul]
  have disjoint : Disjoint ((units.filter (tier.holds · = true)).image (fun _ => 0))
      (((units.filter (¬ tier.holds · = true)).image (tierAt tiers)).image Nat.succ) := by
    rw [Finset.disjoint_left]
    intro i first later
    obtain ⟨_, _, rfl⟩ := Finset.mem_image.mp first
    obtain ⟨_, _, same⟩ := Finset.mem_image.mp later
    cases same
  have fees : ∑ i ∈ units.image (tierAt (tier :: tiers)), feeAt (tier :: tiers) i =
      (if (units.filter (tier.holds · = true)).Nonempty then tier.flatFee else 0) +
        ∑ i ∈ (units.filter (¬ tier.holds · = true)).image (tierAt tiers), feeAt tiers i := by
    rw [image_tierAt_cons, Finset.sum_union disjoint, Finset.sum_image (fun _ _ _ _ same => Nat.succ.inj same)]
    congr 1
    split
    · rename_i some
      rw [Finset.image_const some, Finset.sum_singleton]
      rfl
    · rename_i none
      rw [Finset.not_nonempty_iff_eq_empty.mp none]
      rfl
  unfold priceOf
  rw [prices, fees]
  omega

end Ladder

def pieces (unitPrice : Int) : List PriceTier → Nat → Nat → List (PriceTier × Nat)
  | [], remaining, _ => if 0 < remaining then [({ upToUnits := 0, unitPrice, flatFee := 0 }, remaining)] else []
  | tier :: tiers, remaining, lower =>
    if tier.upToUnits = 0 then if 0 < remaining then [(tier, remaining)] else []
    else
      let units := min remaining (tier.upToUnits - lower)
      (if 0 < units then [(tier, units)] else []) ++ pieces unitPrice tiers (remaining - units) tier.upToUnits

def pieceLine (piece : PriceTier × Nat) : TierLine where
  upToUnits := piece.1.upToUnits
  units := piece.2
  unitPrice := piece.1.unitPrice
  amount := i128Saturating (i128Saturating (piece.2 * piece.1.unitPrice) + piece.1.flatFee)

def addLine (total : Int) (line : TierLine) : Int := i128Saturating (total + line.amount)

section Loop

variable {tiers : List PriceTier} {unitPrice : Int}

theorem i128Saturating_eq {n : Int} (nonneg : 0 ≤ n) : i128Saturating n = min n i128Max := by
  unfold i128Saturating i128Max i128Min
  omega

theorem i128Saturating_idem (n : Int) : i128Saturating (i128Saturating n + 0) = i128Saturating n := by
  unfold i128Saturating i128Max i128Min
  omega

theorem flatLine_eq (units : Nat) (unitPrice : Int) :
    flatLine units unitPrice = pieceLine ({ upToUnits := 0, unitPrice, flatFee := 0 }, units) := by
  unfold flatLine pieceLine
  rw [i128Saturating_idem]

theorem pieces_zero (unitPrice : Int) (tiers : List PriceTier) (lower : Nat) : pieces unitPrice tiers 0 lower = [] := by
  induction tiers generalizing lower with
  | nil => rfl
  | cons tier tiers ih =>
    unfold pieces
    split
    · rfl
    · simp [ih]

def finishGraduated (unitPrice : Int) (outcome : Nat × Int × List TierLine) : Int × List TierLine :=
  if 0 < outcome.1 then
    (addLine outcome.2.1 (flatLine outcome.1 unitPrice), outcome.2.2 ++ [flatLine outcome.1 unitPrice])
  else outcome.2

theorem rateTiers_pieces (unitPrice : Int) (tiers : List PriceTier) (remaining lower : Nat) (total : Int)
    (lines : List TierLine) : finishGraduated unitPrice (rateTiers tiers remaining lower total lines) =
      (((pieces unitPrice tiers remaining lower).map pieceLine).foldl addLine total,
        lines ++ (pieces unitPrice tiers remaining lower).map pieceLine) := by
  induction tiers generalizing remaining lower total lines with
  | nil =>
    unfold rateTiers finishGraduated pieces
    split
    · rw [flatLine_eq]
      rfl
    · simp
  | cons tier tiers ih =>
    unfold rateTiers
    split
    · rename_i done
      rw [done, pieces_zero]
      simp [finishGraduated]
    · rename_i left
      have billed : 0 < remaining := Nat.pos_of_ne_zero left
      unfold pieces
      by_cases open_ : tier.upToUnits = 0
      · simp [open_, billed, finishGraduated, pieceLine, addLine]
      · have units : (if remaining < tier.upToUnits - lower then remaining else tier.upToUnits - lower) =
            min remaining (tier.upToUnits - lower) := by
          split <;> omega
        simp only [open_, if_false, units]
        by_cases some : 0 < min remaining (tier.upToUnits - lower)
        · simp only [some, if_true]
          rw [ih]
          simp [pieceLine, addLine]
        · have none : min remaining (tier.upToUnits - lower) = 0 := Nat.eq_zero_of_not_pos some
          simp only [some, if_false]
          rw [ih, none]
          simp

theorem rateUnits_graduated (n : Nat) (unitPrice : Int) (tiers : List PriceTier) :
    rateUnits .graduated n unitPrice tiers =
      (((pieces unitPrice tiers n 0).map pieceLine).foldl addLine 0, (pieces unitPrice tiers n 0).map pieceLine) := by
  have loop := rateTiers_pieces unitPrice tiers n 0 0 []
  unfold rateUnits
  split
  · rename_i zero
    rw [zero, pieces_zero]
    rfl
  · rw [nil_append] at loop
    exact loop

end Loop

def pieceCost (piece : PriceTier × Nat) : Int := piece.2 * piece.1.unitPrice + piece.1.flatFee

section Exact

variable {tier : PriceTier} {tiers : List PriceTier} {unitPrice : Int} {previous lower remaining : Nat}

theorem pieces_units (unitPrice : Int) (tiers : List PriceTier) (remaining lower : Nat) :
    ((pieces unitPrice tiers remaining lower).map (·.2)).sum = remaining := by
  induction tiers generalizing remaining lower with
  | nil =>
    unfold pieces
    split
    · simp
    · simp only [map_nil, sum_nil]
      omega
  | cons tier tiers ih =>
    unfold pieces
    split
    · split
      · simp
      · simp only [map_nil, sum_nil]
        omega
    · have first : ((if 0 < min remaining (tier.upToUnits - lower) then
          [(tier, min remaining (tier.upToUnits - lower))] else []).map (·.2)).sum =
          min remaining (tier.upToUnits - lower) := by
        split
        · simp
        · simp only [map_nil, sum_nil]
          omega
      simp only [map_append, sum_append, ih, first]
      omega

theorem mem_pieces {piece : PriceTier × Nat} (listed : piece ∈ pieces unitPrice tiers remaining lower) :
    piece.1 ∈ tiers ∨ piece.1 = { upToUnits := 0, unitPrice, flatFee := 0 } := by
  induction tiers generalizing remaining lower with
  | nil =>
    unfold pieces at listed
    split at listed
    · exact .inr (congrArg Prod.fst (mem_singleton.mp listed))
    · cases listed
  | cons tier tiers ih =>
    have here {units : Nat} (single : piece ∈ if 0 < units then [(tier, units)] else []) : piece.1 = tier := by
      split at single
      · exact congrArg Prod.fst (mem_singleton.mp single)
      · cases single
    unfold pieces at listed
    split at listed
    · exact .inl (here listed ▸ .head _)
    · obtain first | later := mem_append.mp listed
      · exact .inl (here first ▸ .head _)
      · obtain known | flat := ih later
        · exact .inl (mem_cons_of_mem _ known)
        · exact .inr flat

theorem validateTiersFrom_cons : validateTiersFrom previous (tier :: tiers) = true ↔
    (0 ≤ tier.unitPrice ∧ 0 ≤ tier.flatFee) ∧ ((tier.upToUnits = 0 ∧ tiers = []) ∨
      (previous < tier.upToUnits ∧ validateTiersFrom tier.upToUnits tiers = true)) := by
  rw [validateTiersFrom]
  split
  · rename_i negative
    simp only [Bool.false_eq_true, false_iff]
    omega
  · split
    · rename_i prices open_
      simp only [List.isEmpty_iff, open_, true_and, Nat.not_lt_zero, false_and, or_false]
      exact ⟨fun last => ⟨by omega, last⟩, fun known => known.2⟩
    · rename_i prices open_
      split
      · simp only [Bool.false_eq_true, false_iff]
        omega
      · rename_i above
        exact ⟨fun rest => ⟨by omega, .inr ⟨by omega, rest⟩⟩, fun known => (known.2.resolve_left fun last => open_ last.1).2⟩

theorem validateTiersFrom_nonneg (valid : validateTiersFrom previous tiers = true) :
    ∀ tier ∈ tiers, 0 ≤ tier.unitPrice ∧ 0 ≤ tier.flatFee := by
  induction tiers generalizing previous with
  | nil => exact fun _ mem => absurd mem not_mem_nil
  | cons first tiers ih =>
    obtain ⟨prices, ⟨_, rfl⟩ | ⟨_, rest⟩⟩ := validateTiersFrom_cons.mp valid
    · intro tier mem
      rw [mem_singleton.mp mem]
      exact prices
    · intro tier mem
      obtain rfl | later := mem_cons.mp mem
      · exact prices
      · exact ih rest tier later

theorem filter_held (above : lower < tier.upToUnits) (r : Nat) :
    (Finset.Ioc lower (lower + r)).filter (tier.holds · = true) =
      Finset.Ioc lower (lower + min r (tier.upToUnits - lower)) := by
  ext k
  simp only [PriceTier.holds, Finset.mem_filter, Finset.mem_Ioc, decide_eq_true_iff]
  omega

theorem filter_passed (above : lower < tier.upToUnits) (r : Nat) :
    (Finset.Ioc lower (lower + r)).filter (¬ tier.holds · = true) =
      Finset.Ioc tier.upToUnits (tier.upToUnits + (r - min r (tier.upToUnits - lower))) := by
  ext k
  simp only [PriceTier.holds, Finset.mem_filter, Finset.mem_Ioc, decide_eq_true_iff]
  omega

theorem pieces_cost (unitPrice : Int) (valid : validateTiersFrom lower tiers = true) (remaining : Nat) :
    ((pieces unitPrice tiers remaining lower).map pieceCost).sum =
      priceOf tiers unitPrice (Finset.Ioc lower (lower + remaining)) := by
  induction tiers generalizing remaining lower with
  | nil =>
    rw [priceOf_nil, Nat.card_Ioc, Nat.add_sub_cancel_left]
    unfold pieces
    split
    · simp [pieceCost]
    · rename_i none
      simp [Nat.eq_zero_of_not_pos none]
  | cons tier tiers ih =>
    have first (units : Nat) : ((if 0 < units then [(tier, units)] else []).map pieceCost).sum =
        units * tier.unitPrice + if 0 < units then tier.flatFee else 0 := by
      split
      · simp [pieceCost]
      · rename_i none
        simp [Nat.eq_zero_of_not_pos none]
    have some (units : Nat) : (Finset.Ioc lower (lower + units)).Nonempty ↔ 0 < units := by
      rw [Finset.nonempty_Ioc]
      omega
    rw [priceOf_cons]
    unfold pieces
    obtain ⟨_, ⟨open_, rfl⟩ | ⟨above, rest⟩⟩ := validateTiersFrom_cons.mp valid
    · have all : (Finset.Ioc lower (lower + remaining)).filter (tier.holds · = true) =
          Finset.Ioc lower (lower + remaining) := by
        simp [PriceTier.holds, open_]
      have none : (Finset.Ioc lower (lower + remaining)).filter (¬ tier.holds · = true) = ∅ := by
        simp [PriceTier.holds, open_]
      rw [if_pos open_, first, all, none, priceOf_nil, Nat.card_Ioc, Nat.add_sub_cancel_left]
      simp only [some, Finset.card_empty]
      omega
    · have bounded : tier.upToUnits ≠ 0 := by omega
      rw [if_neg bounded, filter_held above, filter_passed above, ← ih rest, Nat.card_Ioc,
        Nat.add_sub_cancel_left]
      simp only [some, map_append, sum_append, first]

end Exact

section Totals

variable {tiers : List PriceTier} {unitPrice : Int}

theorem pieceCost_nonneg {lower : Nat} (valid : validateTiersFrom lower tiers = true) (price : 0 ≤ unitPrice)
    (remaining : Nat) : ∀ piece ∈ pieces unitPrice tiers remaining lower, 0 ≤ piece.2 * piece.1.unitPrice ∧
      0 ≤ piece.1.flatFee := by
  intro piece mem
  have prices : 0 ≤ piece.1.unitPrice ∧ 0 ≤ piece.1.flatFee := by
    obtain known | flat := mem_pieces mem
    · exact validateTiersFrom_nonneg valid piece.1 known
    · rw [flat]
      exact ⟨price, le_rfl⟩
  exact ⟨mul_nonneg (Int.natCast_nonneg _) prices.1, prices.2⟩

theorem pieceLine_amount {piece : PriceTier × Nat} (price : 0 ≤ piece.2 * piece.1.unitPrice)
    (fee : 0 ≤ piece.1.flatFee) : (pieceLine piece).amount = min (pieceCost piece) i128Max := by
  have above : 0 ≤ i128Max := by decide
  have capped : 0 ≤ min (piece.2 * piece.1.unitPrice) i128Max := le_min price above
  unfold pieceLine pieceCost
  rw [i128Saturating_eq price, i128Saturating_eq (add_nonneg capped fee), min_add_min fee]

theorem foldl_addLine (lines : List TierLine) (nonneg : ∀ line ∈ lines, 0 ≤ line.amount) :
    lines.foldl addLine 0 = min (lines.map (·.amount)).sum i128Max := by
  have general (total : Int) (start : 0 ≤ total) : lines.foldl addLine total =
      lines.foldl (fun acc line => min (acc + line.amount) i128Max) total := by
    induction lines generalizing total with
    | nil => rfl
    | cons line lines ih =>
      have sum : 0 ≤ total + line.amount := add_nonneg start (nonneg line (.head _))
      have step : addLine total line = min (total + line.amount) i128Max := i128Saturating_eq sum
      rw [foldl_cons, foldl_cons, step,
        ih (fun line mem => nonneg line (mem_cons_of_mem _ mem)) _ (le_min sum (by decide))]
  rw [general 0 le_rfl, foldl_capped _ _ nonneg (by decide), zero_add]

theorem priceOf_mono (valid : validateTiers tiers = true) (price : 0 ≤ unitPrice) {m n : Nat} (le : m ≤ n) :
    perUnit tiers unitPrice m ≤ perUnit tiers unitPrice n := by
  have prices := validateTiersFrom_nonneg valid
  have units : Finset.Icc 1 m ⊆ Finset.Icc 1 n := Finset.Icc_subset_Icc_right le
  apply add_le_add
  · apply Finset.sum_le_sum_of_subset_of_nonneg units
    intro k _ _
    unfold priceAt
    cases found : tiers.find? (·.holds k) with
    | none => exact price
    | some tier => exact (prices tier (mem_of_find?_eq_some found)).1
  · apply Finset.sum_le_sum_of_subset_of_nonneg (Finset.image_subset_image units)
    intro i _ _
    unfold feeAt
    cases found : tiers[i]? with
    | none => exact le_rfl
    | some tier => exact (prices tier (mem_of_getElem? found)).2

theorem graduated_total (valid : validateTiers tiers = true) (price : 0 ≤ unitPrice) (n : Nat) :
    (rateUnits .graduated n unitPrice tiers).1 = min (perUnit tiers unitPrice n) i128Max ∧
      min ((rateUnits .graduated n unitPrice tiers).2.map (·.amount)).sum i128Max =
        (rateUnits .graduated n unitPrice tiers).1 := by
  have costs := pieceCost_nonneg valid price n
  have amount : ∀ piece ∈ pieces unitPrice tiers n 0, (pieceLine piece).amount = min (pieceCost piece) i128Max :=
    fun piece mem => pieceLine_amount (costs piece mem).1 (costs piece mem).2
  have nonneg : ∀ line ∈ (pieces unitPrice tiers n 0).map pieceLine, 0 ≤ line.amount := by
    intro line mem
    obtain ⟨piece, known, rfl⟩ := mem_map.mp mem
    rw [amount piece known]
    exact le_min (add_nonneg (costs piece known).1 (costs piece known).2) (by decide)
  have all : Finset.Ioc 0 (0 + n) = Finset.Icc 1 n := by
    ext k
    simp only [Finset.mem_Ioc, Finset.mem_Icc]
    omega
  have amounts : ((pieces unitPrice tiers n 0).map pieceLine).map (·.amount) =
      (pieces unitPrice tiers n 0).map fun piece => min (pieceCost piece) i128Max := by
    rw [map_map]
    exact map_congr_left amount
  rw [rateUnits_graduated, foldl_addLine _ nonneg]
  refine ⟨?_, rfl⟩
  have pos : ∀ piece ∈ pieces unitPrice tiers n 0, 0 ≤ pieceCost piece :=
    fun piece known => add_nonneg (costs piece known).1 (costs piece known).2
  show min (((pieces unitPrice tiers n 0).map pieceLine).map (·.amount)).sum i128Max = _
  rw [amounts, sum_capped pieceCost _ pos (by decide), pieces_cost unitPrice valid, all, perUnit]

/-- Graduated pricing bills each unit at the price of its tier and each tier's fee once, up to the largest `i128`. -/
theorem graduated_perUnit (valid : validateTiers tiers = true) (price : 0 ≤ unitPrice) (n : Nat) :
    (rateUnits .graduated n unitPrice tiers).1 = min (perUnit tiers unitPrice n) i128Max ∧
      ((rateUnits .graduated n unitPrice tiers).2.map (·.units)).sum = n ∧
      min ((rateUnits .graduated n unitPrice tiers).2.map (·.amount)).sum i128Max =
        (rateUnits .graduated n unitPrice tiers).1 ∧
      ∀ m ≤ n, (rateUnits .graduated m unitPrice tiers).1 ≤ (rateUnits .graduated n unitPrice tiers).1 := by
  have total := graduated_total valid price
  refine ⟨(total n).1, ?_, (total n).2, fun m le => ?_⟩
  · rw [rateUnits_graduated, map_map]
    exact pieces_units ..
  · rw [(total m).1, (total n).1]
    exact min_le_min_right _ (priceOf_mono valid price le)

end Totals

theorem graduated_perUnit_past : (rateUnits .graduated 5 7 [⟨2, 5, 1⟩, ⟨4, 3, 10⟩]).1 = 34 ∧
    (rateUnits .graduated 5 7 [⟨2, 5, 1⟩, ⟨4, 3, 10⟩]).1 = min (perUnit [⟨2, 5, 1⟩, ⟨4, 3, 10⟩] 7 5) i128Max :=
  ⟨by decide, (graduated_perUnit (by decide) (by decide) 5).1⟩

theorem graduated_departs : (validateTiers [⟨0, i128Max, 0⟩] = true ∧
      (rateUnits .graduated 2 0 [⟨0, i128Max, 0⟩]).1 ≠ perUnit [⟨0, i128Max, 0⟩] 0 2) ∧
    validateTiers [⟨1, 5, 0⟩] = true ∧ (∀ tier ∈ [(⟨1, 5, 0⟩ : PriceTier)], tier.holds 2 = false) ∧
      (rateUnits .graduated 2 7 [⟨1, 5, 0⟩]).1 = 12 ∧ perUnit [⟨1, 5, 0⟩] 0 2 = 5 := by
  decide

end SubTrackr.Metering
