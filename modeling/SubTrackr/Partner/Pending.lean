import SubTrackr.Lib.Waterfall
import SubTrackr.Partner.PartnerService
import Mathlib.Algebra.Order.Field.Basic

namespace SubTrackr.Partner

open List Lib SplitEngine BackendPartnerService

variable {config : SplitConfiguration} {configurations : List SplitConfiguration} {r grossAmount : ℚ}

def Accepted (config : SplitConfiguration) : Prop := (validateSplitConfig config.toPartial).isValid = true

instance : DecidablePred Accepted := fun _ => inferInstanceAs (Decidable (_ = _))

def SplitTier.demand (tier : SplitTier) : Option ℚ :=
  match tier.fixedAmount with
  | some a => some (max 0 a)
  | none => if tier.splitPercentage ≤ 0 then some 0 else none

def SplitConfiguration.demand (config : SplitConfiguration) : Option ℚ :=
  match config.splitType with
  | .percentage => if config.percentage.getD 0 ≤ 0 then some 0 else none
  | .fixed_amount => some (max 0 (config.fixedAmount.getD 0))
  | .tiered_waterfall => totalDemand ((config.tiers.getD []).map SplitTier.demand)

theorem clamp_bounds (p : ℚ) : 0 ≤ max 0 (min p 1) ∧ max 0 (min p 1) ≤ 1 :=
  ⟨le_max_left .., max_le zero_le_one (min_le_right ..)⟩

def SplitTier.draw (tier : SplitTier) : Draw ℚ :=
  match tier.fixedAmount with
  | some a => .ofAmount (max 0 a) (le_max_left ..)
  | none => .ofRate (max 0 (min (tier.splitPercentage / 100) 1)) (clamp_bounds _).1 (clamp_bounds _).2

def sortedTiers (config : SplitConfiguration) : List SplitTier :=
  (config.tiers.getD []).insertionSort fun a b => a.threshold ≤ b.threshold

def SplitConfiguration.draw (config : SplitConfiguration) : Draw ℚ :=
  match config.splitType with
  | .percentage => .ofRate (max 0 (min (config.percentage.getD 0 / 100) 1)) (clamp_bounds _).1 (clamp_bounds _).2
  | .fixed_amount => .ofAmount (max 0 (config.fixedAmount.getD 0)) (le_max_left ..)
  | .tiered_waterfall => .all ((sortedTiers config).map SplitTier.draw)

theorem clamp_eq_zero_iff (p : ℚ) : max 0 (min (p / 100) 1) = 0 ↔ p ≤ 0 := by
  rw [max_eq_left_iff, min_le_iff, or_iff_left (by norm_num), div_le_iff₀ (by norm_num), zero_mul]

theorem SplitTier.draw_demands (tier : SplitTier) : tier.draw.Demands tier.demand := by
  unfold SplitTier.draw SplitTier.demand
  cases tier.fixedAmount with
  | some a => exact Draw.ofAmount_demands _
  | none =>
    have rate := Draw.ofRate_demands (clamp_bounds (tier.splitPercentage / 100)).1 (clamp_bounds (tier.splitPercentage / 100)).2
    simpa only [clamp_eq_zero_iff] using rate

theorem demands_map {ι : Type} {draw : ι → Draw ℚ} {demand : ι → Option ℚ} (each : ∀ x, (draw x).Demands (demand x)) (xs : List ι) :
    List.Forall₂ Draw.Demands (xs.map draw) (xs.map demand) := by
  rw [forall₂_map_left_iff, forall₂_map_right_iff]
  exact forall₂_same.mpr fun x _ => each x

theorem SplitConfiguration.draw_demands (config : SplitConfiguration) : config.draw.Demands config.demand := by
  unfold SplitConfiguration.draw SplitConfiguration.demand
  cases config.splitType with
  | percentage =>
    have rate := Draw.ofRate_demands (clamp_bounds (config.percentage.getD 0 / 100)).1 (clamp_bounds (config.percentage.getD 0 / 100)).2
    simpa only [clamp_eq_zero_iff] using rate
  | fixed_amount => exact Draw.ofAmount_demands _
  | tiered_waterfall =>
    have unsorted := totalDemand_perm (((config.tiers.getD []).perm_insertionSort fun a b => a.threshold ≤ b.threshold).map
      SplitTier.demand)
    rw [← unsorted]
    exact .all (demands_map SplitTier.draw_demands _)

structure Pays (splits : List Split) (partnerId : String) (amount : ℚ) : Prop where
  own : ∀ split ∈ splits, split.partnerId = partnerId
  nonneg : ∀ split ∈ splits, 0 ≤ split.amount
  sum : total splits = amount

theorem Pays.nil (partnerId : String) : Pays [] partnerId 0 := ⟨by simp, by simp, rfl⟩

theorem Pays.cons {splits : List Split} {partnerId : String} {amount percentage a : ℚ} (pays : Pays splits partnerId amount)
    (nonneg : 0 ≤ a) : Pays (⟨partnerId, a, percentage⟩ :: splits) partnerId (a + amount) := by
  constructor
  · simpa using pays.own
  · simpa [nonneg] using pays.nonneg
  · rw [← pays.sum, total, total, map_cons, sum_cons]

theorem Pays.single {partnerId : String} {a : ℚ} (percentage : ℚ) (nonneg : 0 ≤ a) : Pays [⟨partnerId, a, percentage⟩] partnerId a := by
  simpa using (Pays.nil partnerId).cons nonneg

theorem SplitTier.take_eq (tier : SplitTier) (pos : 0 < r) :
    tier.draw.take r = max 0 (min (tier.fixedAmount.getD (r * (tier.splitPercentage / 100))) r) := by
  unfold SplitTier.draw
  cases tier.fixedAmount with
  | some a =>
    change min (max 0 a) r = max 0 (min a r)
    rw [min_comm, max_comm 0 a, inf_sup_left, min_eq_right pos.le, min_comm, max_comm]
  | none =>
    change r * max 0 (min (tier.splitPercentage / 100) 1) = max 0 (min (r * (tier.splitPercentage / 100)) r)
    rw [mul_max_of_nonneg _ _ pos.le, mul_min_of_nonneg _ _ pos.le, mul_zero, mul_one]

theorem tierSplits_pays (partnerId : String) (tiers : List SplitTier) (nonneg : 0 ≤ r) :
    Pays (tierSplits partnerId r tiers) partnerId (Draw.shares (tiers.map SplitTier.draw) r).sum := by
  induction tiers generalizing r with
  | nil => exact Pays.nil partnerId
  | cons tier tiers ih =>
    rw [tierSplits]
    split
    · rename_i nothing
      rw [le_antisymm nothing nonneg, Draw.sum_shares_zero]
      exact Pays.nil partnerId
    · rename_i pos
      have taken := tier.take_eq (not_le.mp pos)
      rw [map_cons, Draw.shares, sum_cons]
      dsimp only
      split
      · rename_i nothing
        rw [max_eq_left nothing] at taken
        rw [taken, zero_add, sub_zero]
        exact ih nonneg
      · rename_i something
        rw [max_eq_right (not_le.mp something).le] at taken
        rw [← taken]
        exact (ih (tier.draw.left_nonneg nonneg)).cons (tier.draw.nonneg r nonneg)

theorem fixedAmount_of_accepted (accepted : Accepted config) (fixed : config.splitType = .fixed_amount) :
    0 ≤ config.fixedAmount.getD 0 := by
  have errors : fixedAmountErrors config.toPartial = [] := by
    simp only [Accepted, validateSplitConfig, SplitConfiguration.toPartial, fixed, decide_eq_true_eq, length_eq_zero_iff,
      append_eq_nil_iff] at accepted
    simpa [SplitConfiguration.toPartial, fixed] using accepted.1.2
  simp only [fixedAmountErrors, SplitConfiguration.toPartial] at errors
  cases amount : config.fixedAmount with
  | none => simp [amount] at errors
  | some a =>
    rw [amount] at errors
    simpa using errors

theorem clamp_eq (p : ℚ) : min 100 (max 0 p) / 100 = max 0 (min (p / 100) 1) := by
  have scale : (0 : ℚ) ≤ 100 := by norm_num
  rw [inf_sup_left, min_eq_right scale, ← max_div_div_right scale, ← min_div_div_right scale, zero_div,
    div_self (by norm_num), min_comm]

theorem calculateSplit_pays (accepted : Accepted config) (nonneg : 0 ≤ r) :
    Pays (calculateSplit config r).splits config.partnerId (config.draw.take r) ∧
      (calculateSplit config r).totalSplit = config.draw.take r := by
  unfold calculateSplit
  split
  · rename_i nothing
    rw [le_antisymm nothing nonneg, Draw.take_zero]
    exact ⟨Pays.nil _, rfl⟩
  · have whole := config.draw.nonneg r nonneg
    have taken : config.draw.take r = match config.splitType with
        | .percentage => (calculatePercentageSplit config r).totalSplit
        | .fixed_amount => (calculateFixedAmountSplit config r).totalSplit
        | .tiered_waterfall => (Draw.shares ((sortedTiers config).map SplitTier.draw) r).sum := by
      unfold SplitConfiguration.draw
      cases kind : config.splitType with
      | percentage => exact congrArg (r * ·) (clamp_eq _).symm
      | fixed_amount => exact congrArg (min · r) (max_eq_right (fixedAmount_of_accepted accepted kind))
      | tiered_waterfall => rfl
    cases kind : config.splitType with
    | percentage | fixed_amount =>
      rw [kind] at taken
      rw [taken] at whole ⊢
      exact ⟨Pays.single _ whole, rfl⟩
    | tiered_waterfall =>
      rw [kind] at taken
      rw [taken]
      dsimp only [calculateTieredWaterfall]
      split
      · rename_i none
        have empty : sortedTiers config = [] := by rw [sortedTiers, length_eq_zero_iff.mp none, insertionSort_nil]
        rw [empty]
        exact ⟨Pays.nil _, rfl⟩
      · have pays := tierSplits_pays config.partnerId (sortedTiers config) nonneg
        exact ⟨pays, pays.sum⟩

def paid (splits : List Split) (partnerId : String) : ℚ := fiber Split.partnerId Split.amount splits partnerId

theorem Pays.paid_eq {splits : List Split} {partnerId : String} {amount : ℚ} (pays : Pays splits partnerId amount) (other : String) :
    paid splits other = if partnerId = other then amount else 0 := by
  rw [paid, fiber_of_same Split.partnerId Split.amount pays.own, ← pays.sum, total]

theorem waterfallSplits_pays (accepted : ∀ config ∈ configurations, Accepted config) (nonneg : 0 ≤ r) :
    (∀ split ∈ waterfallSplits r configurations, 0 ≤ split.amount) ∧
      total (waterfallSplits r configurations) = (Draw.shares (configurations.map SplitConfiguration.draw) r).sum ∧
      ∀ partnerId, paid (waterfallSplits r configurations) partnerId =
        fiber Prod.fst Prod.snd ((configurations.map (·.partnerId)).zip
          (Draw.shares (configurations.map SplitConfiguration.draw) r)) partnerId := by
  induction configurations generalizing r with
  | nil => exact ⟨by simp [waterfallSplits], rfl, fun _ => rfl⟩
  | cons config rest ih =>
    rw [waterfallSplits]
    split
    · rename_i nothing
      obtain rfl := le_antisymm nothing nonneg
      refine ⟨by simp, (Draw.sum_shares_zero _).symm, fun partnerId => ?_⟩
      exact (fiber_of_zero _ _ (fun e mem => Draw.eq_zero_of_mem_shares_zero (of_mem_zip mem).2) partnerId).symm
    · obtain ⟨pays, totalSplit⟩ := calculateSplit_pays (accepted config (by simp)) nonneg
      obtain ⟨pos, sum, parts⟩ := ih (fun c mem => accepted c (mem_cons_of_mem _ mem))
        (config.draw.left_nonneg nonneg)
      dsimp only
      rw [totalSplit]
      refine ⟨?_, ?_, fun partnerId => ?_⟩
      · intro split mem
        rcases mem_append.mp mem with first | later
        · exact pays.nonneg split first
        · exact pos split later
      · rw [map_cons, Draw.shares, sum_cons, ← sum, ← pays.sum, total, map_append, sum_append]
        rfl
      · have first := pays.paid_eq partnerId
        have others := parts partnerId
        unfold paid at first others ⊢
        rw [fiber_append, first, others, map_cons, map_cons, Draw.shares, zip_cons_cons, fiber_cons]

def share (grossAmount : ℚ) (config : SplitConfiguration) : ℚ := config.draw.take grossAmount

theorem addSplits (pending : InsertionMap String ℚ) (splits : List Split) :
    (splits.foldl addSplit pending).values.sum = pending.values.sum + total splits ∧
      ∀ partnerId, ((splits.foldl addSplit pending).get partnerId).getD 0 =
        (pending.get partnerId).getD 0 + paid splits partnerId := by
  induction splits generalizing pending with
  | nil => exact ⟨by simp [total], fun _ => by simp [paid, fiber_nil]⟩
  | cons split splits ih =>
    obtain ⟨sum, each⟩ := ih (addSplit pending split)
    rw [foldl_cons]
    refine ⟨?_, fun partnerId => ?_⟩
    · rw [sum, addSplit, InsertionMap.sum_values_add, total, total, map_cons, sum_cons, add_assoc]
    · rw [each, paid, paid, fiber_cons, ← add_assoc]
      congr 1
      by_cases here : split.partnerId = partnerId
      · rw [addSplit, here, InsertionMap.get_set_self, if_pos rfl, Option.getD_some]
      · rw [addSplit, InsertionMap.get_set_of_ne _ _ (Ne.symm here), if_neg here, add_zero]

theorem aggregatePendingPayouts_pays (accepted : ∀ config ∈ configurations, Accepted config)
    (active : ∀ config ∈ configurations, config.isActive = true) (nonneg : 0 ≤ grossAmount) :
    (aggregatePendingPayouts configurations grossAmount).values.sum = (configurations.map (share grossAmount)).sum ∧
      ∀ partnerId, ((aggregatePendingPayouts configurations grossAmount).get partnerId).getD 0 =
        fiber SplitConfiguration.partnerId (share grossAmount) configurations partnerId := by
  unfold aggregatePendingPayouts
  have general : ∀ pending : InsertionMap String ℚ,
      (configurations.foldl (addConfig grossAmount) pending).values.sum =
        pending.values.sum + (configurations.map (share grossAmount)).sum ∧
      ∀ partnerId, ((configurations.foldl (addConfig grossAmount) pending).get partnerId).getD 0 =
        (pending.get partnerId).getD 0 + fiber SplitConfiguration.partnerId (share grossAmount) configurations partnerId := by
    induction configurations with
    | nil => exact fun pending => ⟨by simp, fun _ => by simp [fiber_nil]⟩
    | cons config rest ih =>
      intro pending
      obtain ⟨sum, each⟩ := ih (fun c mem => accepted c (mem_cons_of_mem _ mem))
        (fun c mem => active c (mem_cons_of_mem _ mem)) (addConfig grossAmount pending config)
      obtain ⟨pays, -⟩ := calculateSplit_pays (accepted config (by simp)) nonneg
      have added : addConfig grossAmount pending config = (calculateSplit config grossAmount).splits.foldl addSplit pending := by
        simp [addConfig, active config (by simp)]
      obtain ⟨sum', each'⟩ := addSplits pending (calculateSplit config grossAmount).splits
      rw [foldl_cons]
      refine ⟨?_, fun partnerId => ?_⟩
      · rw [sum, added, sum', pays.sum, map_cons, sum_cons, add_assoc, share]
      · rw [each, added, each', pays.paid_eq, fiber_cons, add_assoc, share]
  obtain ⟨sum, each⟩ := general ∅
  refine ⟨?_, fun partnerId => ?_⟩
  · rw [sum]
    exact zero_add _
  · rw [each]
    exact zero_add _

structure Settled (configurations : List SplitConfiguration) (grossAmount : ℚ) : Prop where
  nonneg : ∀ split ∈ (executeWaterfall configurations grossAmount).splits, 0 ≤ split.amount
  totalSplit : (executeWaterfall configurations grossAmount).totalSplit =
    ((executeWaterfall configurations grossAmount).splits.map (·.amount)).sum
  platformRevenue : (executeWaterfall configurations grossAmount).platformRevenue =
    grossAmount - (executeWaterfall configurations grossAmount).totalSplit
  platform_nonneg : 0 ≤ (executeWaterfall configurations grossAmount).platformRevenue
  pending_le : (aggregatePendingPayouts configurations grossAmount).values.sum ≤ grossAmount
  same : ∀ partnerId, ((aggregatePendingPayouts configurations grossAmount).get partnerId).getD 0 =
    (((executeWaterfall configurations grossAmount).splits.filter (·.partnerId = partnerId)).map (·.amount)).sum

def LeavesRoom (grossAmount : ℚ) : List SplitConfiguration → Prop
  | [] => True
  | first :: others => ∃ a, totalDemand (others.map SplitConfiguration.demand) = some a ∧
    (calculateSplit first grossAmount).totalSplit + a ≤ grossAmount

/-- Nothing is sold, or what follows the first configuration that takes anything finds room. -/
def Covered (configurations : List SplitConfiguration) (grossAmount : ℚ) : Prop :=
  grossAmount = 0 ∨ LeavesRoom grossAmount ((sorted configurations).dropWhile fun config => config.demand = some 0)

theorem mem_sorted : config ∈ sorted configurations ↔ config ∈ configurations := mem_insertionSort _

section

variable (accepted : ∀ config ∈ configurations, Accepted config)

include accepted

theorem shares_iff_leavesRoom (positive : 0 < grossAmount) :
    Draw.shares (configurations.map SplitConfiguration.draw) grossAmount = configurations.map (share grossAmount) ↔
      LeavesRoom grossAmount (configurations.dropWhile fun config => config.demand = some 0) := by
  induction configurations with
  | nil => simp [Draw.shares, LeavesRoom]
  | cons config rest ih =>
    have accepted' : ∀ c ∈ rest, Accepted c := fun c member => accepted c (mem_cons_of_mem _ member)
    have nothing := config.draw_demands.take_eq_zero_iff positive
    rw [map_cons, Draw.shares, map_cons, share, List.cons.injEq, and_iff_right rfl]
    by_cases zero : config.demand = some 0
    · rw [nothing.mpr zero, sub_zero, ih accepted', dropWhile_cons_of_pos (by simpa using zero)]
    · have some : 0 < config.draw.take grossAmount :=
        lt_of_le_of_ne (config.draw.nonneg _ positive.le) fun same => zero (nothing.mp same.symm)
      have all := Draw.shares_eq_iff (demands_map SplitConfiguration.draw_demands rest) (config.draw.left_nonneg positive.le)
        (sub_lt_self grossAmount some)
      rw [map_map] at all
      rw [dropWhile_cons_of_neg (by simpa using zero), LeavesRoom,
        (calculateSplit_pays (accepted config (by simp)) positive.le).2]
      simp only [← le_sub_iff_add_le']
      exact all

theorem shares_iff_covered (nonneg : 0 ≤ grossAmount) :
    Draw.shares ((sorted configurations).map SplitConfiguration.draw) grossAmount =
      (sorted configurations).map (share grossAmount) ↔ Covered configurations grossAmount := by
  rcases nonneg.eq_or_lt with rfl | something
  · refine iff_of_true ?_ (.inl rfl)
    rw [Draw.shares_zero, map_map]
    rfl
  · have accepted' : ∀ config ∈ sorted configurations, Accepted config :=
      fun config mem => accepted config (mem_sorted.mp mem)
    rw [shares_iff_leavesRoom accepted' something, Covered, or_iff_right something.ne']

theorem same_iff_shares
    (active : ∀ config ∈ configurations, config.isActive = true) (nonneg : 0 ≤ grossAmount) :
    (∀ partnerId, ((aggregatePendingPayouts configurations grossAmount).get partnerId).getD 0 =
      paid (executeWaterfall configurations grossAmount).splits partnerId) ↔
    Draw.shares ((sorted configurations).map SplitConfiguration.draw) grossAmount =
      (sorted configurations).map (share grossAmount) := by
  have perm : (sorted configurations).Perm configurations := configurations.perm_insertionSort _
  obtain ⟨-, -, parts⟩ := waterfallSplits_pays (fun config member => accepted config (mem_sorted.mp member)) nonneg
  have pending : ∀ partnerId, ((aggregatePendingPayouts configurations grossAmount).get partnerId).getD 0 =
      fiber Prod.fst Prod.snd (((sorted configurations).map (·.partnerId)).zip
        ((sorted configurations).map (share grossAmount))) partnerId := by
    intro partnerId
    rw [(aggregatePendingPayouts_pays accepted active nonneg).2, ← fiber_perm _ _ perm, zip_map', fiber, fiber,
      filter_map, map_map]
    rfl
  constructor
  · intro same
    have less : List.Forall₂ (· ≤ ·) (Draw.shares ((sorted configurations).map SplitConfiguration.draw) grossAmount) _ :=
      Draw.shares_le nonneg le_rfl
    rw [map_map] at less
    refine eq_of_fibers_eq less (?_ : _ = ((sorted configurations).map (·.partnerId)).length) fun partnerId => ?_
    · rw [Draw.length_shares, length_map, length_map]
    · rw [← pending, same]
      exact (parts partnerId).symm
  · intro same partnerId
    rw [pending, ← same]
    exact (parts partnerId).symm

end

/-- The services agree, and stay within the gross amount, exactly where the configurations leave each other room. -/
theorem settled_iff_covered (accepted : ∀ config ∈ configurations, Accepted config)
    (active : ∀ config ∈ configurations, config.isActive = true) (nonneg : 0 ≤ grossAmount) :
    Settled configurations grossAmount ↔ Covered configurations grossAmount := by
  have perm : (sorted configurations).Perm configurations := configurations.perm_insertionSort _
  obtain ⟨positive, sum, -⟩ := waterfallSplits_pays (fun config member => accepted config (mem_sorted.mp member)) nonneg
  have bounds : 0 ≤ (Draw.shares ((sorted configurations).map SplitConfiguration.draw) grossAmount).sum ∧ _ :=
    Draw.sum_shares_bounds nonneg
  constructor
  · intro settled
    exact (shares_iff_covered accepted nonneg).mp ((same_iff_shares accepted active nonneg).mp settled.same)
  · intro covered
    have same := (shares_iff_covered accepted nonneg).mpr covered
    constructor
    · exact positive
    · rfl
    · rfl
    · exact sub_nonneg.mpr (sum.trans_le bounds.2)
    · rw [(aggregatePendingPayouts_pays accepted active nonneg).1, ← (perm.map (share grossAmount)).sum_eq, ← same]
      exact bounds.2
    · exact (same_iff_shares accepted active nonneg).mpr same

def exampleConfigurations : List SplitConfiguration :=
  [{ subscriptionId := "sub_1", partnerId := "partner_1", splitType := .percentage, payoutSchedule := .daily,
     percentage := some 60, isActive := true },
   { subscriptionId := "sub_1", partnerId := "partner_2", splitType := .fixed_amount, payoutSchedule := .daily,
     fixedAmount := some 30, isActive := true }]

theorem settled_exampleConfigurations : Settled exampleConfigurations 100 := by
  refine (settled_iff_covered (by decide +kernel) (by decide) (by norm_num)).mpr (.inr ⟨30, ?_, ?_⟩)
  · decide +kernel
  · decide +kernel

def exampleOverdrawn : List SplitConfiguration :=
  ["partner_1", "partner_2"].map fun partnerId =>
    { subscriptionId := "sub_1", partnerId := partnerId, splitType := .percentage, payoutSchedule := .daily,
      percentage := some 60, isActive := true }

theorem not_settled : ¬ ∀ (configurations : List SplitConfiguration) (grossAmount : ℚ),
    (∀ config ∈ configurations, Accepted config ∧ config.isActive = true) → 0 ≤ grossAmount →
      Settled configurations grossAmount := by
  intro all
  have settled := all exampleOverdrawn 100 (by decide +kernel) (by norm_num)
  have sum : (aggregatePendingPayouts exampleOverdrawn 100).values.sum = 120 := by decide +kernel
  have bound := settled.pending_le
  rw [sum] at bound
  norm_num at bound

end SubTrackr.Partner
