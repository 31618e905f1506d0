import SubTrackr.FairQueue.Weights

namespace SubTrackr.FairQueue

section Statement

variable (baseWeights : PriorityClass → ℚ) (depths : PriorityClass → ℕ) (paused : PriorityClass → Bool)

/-- What `computeEffectiveWeights` returns, unless the shares are `0 / 0` and the active weights `NaN`. -/
def exactWeights : Option (PriorityClass → ℚ) :=
  if PRIORITY_ORDER.filter (isActive depths paused) ≠ [] ∧ 0 < redistributable baseWeights depths paused ∧
      activeWeightSum baseWeights depths paused = 0 then none
  else some (computeEffectiveWeights baseWeights depths paused)

structure Redistributes (weights : PriorityClass → ℚ) : Prop where
  nonneg (p : PriorityClass) : 0 ≤ weights p
  zero_iff (p : PriorityClass) : weights p = 0 ↔ isActive depths paused p = false ∨ baseWeights p = 0 ∧ p ≠ .low
  total : (∃ p, isActive depths paused p = true) → ∑ p, weights p = ∑ p, baseWeights p
  floor : isActive depths paused .low = true → (∑ p, baseWeights p) / 100 ≤ weights .low

def share (p : PriorityClass) : ℚ :=
  if isActive depths paused p then (∑ q, baseWeights q) * (baseWeights p / activeWeightSum baseWeights depths paused) else 0

end Statement

variable {baseWeights : PriorityClass → ℚ} {depths : PriorityClass → ℕ} {paused : PriorityClass → Bool}

section

variable (nonneg : ∀ p, 0 ≤ base p) (some : 0 < activeWeightSum base depths paused)

include nonneg some

theorem reweighted_share :
    reweighted base depths paused = share base depths paused := by
  funext p
  unfold share
  split
  · rename_i active
    rw [reweighted_active nonneg active, ← weights_split, add_mul, mul_div_cancel₀ _ some.ne']
  · rename_i idle
    exact reweighted_idle (Bool.eq_false_iff.mpr idle)

theorem floor_iff
    (active : isActive depths paused .low = true) :
    (∑ p, base p) / 100 ≤ computeEffectiveWeights base depths paused .low ↔
      (∑ p, base p) / 100 ≤ share base depths paused .low +
        surplus (minLow base) (share base depths paused) := by
  have least : (∑ p, base p) / 100 ≤ minLow base := by
    have most : (PRIORITY_ORDER.map base).sum ≤ max (PRIORITY_ORDER.map base).sum 100 := le_max_left _ _
    rw [← sum_order, minLow, LOW_PRIORITY_MIN_CAPACITY_PERCENT]
    linarith
  have more : 0 ≤ surplus (minLow base) (share base depths paused) := by
    refine Finset.sum_nonneg fun p _ => ?_
    split
    · rename_i rich
      exact sub_nonneg.mpr rich.2.le
    · exact le_rfl
  obtain ⟨same, enough⟩ | ⟨_, short, topped⟩ := @computeEffectiveWeights_cases base depths paused
  · have enough := enough active
    rw [minLow_reweighted nonneg some, reweighted_share nonneg some] at enough
    rw [same, reweighted_share nonneg some]
    exact iff_of_true (least.trans enough) (by linarith)
  · rw [minLow_reweighted nonneg some, reweighted_share nonneg some] at short topped
    rw [topped.low, ← min_add_add_left, add_sub_cancel, le_min_iff, and_iff_right least]

end

/-- The weights are a redistribution exactly where no class is active, or some active one has a weight and the low class
    is short of jobs or gets its part from its own share and what the other shares have above the floor. -/
theorem redistributes_iff (nonneg : ∀ p, 0 ≤ baseWeights p) (positive : 0 < ∑ p, baseWeights p) :
    (∃ weights, exactWeights baseWeights depths paused = some weights ∧ Redistributes baseWeights depths paused weights) ↔
      (∀ p, isActive depths paused p = false) ∨ 0 < activeWeightSum baseWeights depths paused ∧
        (isActive depths paused .low = true → (∑ p, baseWeights p) / 100 ≤ share baseWeights depths paused .low +
          surplus (minLow baseWeights) (share baseWeights depths paused)) := by
  rcases (activeWeightSum_nonneg nonneg).eq_or_lt with none | working
  · constructor
    · rintro ⟨weights, found, _⟩
      refine .inl fun p => Bool.eq_false_iff.mpr fun active => ?_
      have shared : 0 < redistributable baseWeights depths paused := by
        rw [← weights_split, ← none, zero_add] at positive
        exact positive
      rw [exactWeights, if_pos ⟨active_filter_ne_nil active, shared, none.symm⟩] at found
      cases found
    · rintro (idle | ⟨working, _⟩)
      · have nothing : PRIORITY_ORDER.filter (isActive depths paused) = [] :=
          List.filter_eq_nil_iff.mpr fun p _ => Bool.eq_false_iff.mp (idle p)
        have zero (p : PriorityClass) := @computeEffectiveWeights_idle baseWeights depths paused p (idle p)
        refine ⟨_, if_neg fun all => all.1 nothing, fun p => (zero p).ge, fun p => iff_of_true (zero p) (.inl (idle p)), ?_,
          ?_⟩
        · rintro ⟨p, active⟩
          rw [idle p] at active
          cases active
        · intro active
          rw [idle .low] at active
          cases active
      · exact absurd none working.ne
  · have found : exactWeights baseWeights depths paused = some (computeEffectiveWeights baseWeights depths paused) :=
      if_neg fun all => working.ne' all.2.2
    constructor
    · rintro ⟨weights, same, fair⟩
      cases found.symm.trans same
      exact .inr ⟨working, fun active => (floor_iff nonneg working active).mp (fair.floor active)⟩
    · intro enough
      have enough : isActive depths paused .low = true →
          (∑ p, baseWeights p) / 100 ≤ computeEffectiveWeights baseWeights depths paused .low := by
        rcases enough with idle | ⟨_, enough⟩
        · intro active
          rw [idle .low] at active
          cases active
        · exact fun active => (floor_iff nonneg working active).mpr (enough active)
      refine ⟨_, found, fun p => ?_, fun p => ?_, fun _ => computeEffectiveWeights_sum nonneg working, enough⟩
      · cases active : isActive depths paused p with
        | false => exact (computeEffectiveWeights_idle active).ge
        | true => exact (le_min (nonneg p) (minLow_pos _).le).trans (computeEffectiveWeights_ge nonneg working active)
      · cases active : isActive depths paused p with
        | false => exact iff_of_true (computeEffectiveWeights_idle active) (.inl rfl)
        | true =>
          have some (more : 0 < computeEffectiveWeights baseWeights depths paused p)
              (unlike : ¬(baseWeights p = 0 ∧ p ≠ .low)) :
              computeEffectiveWeights baseWeights depths paused p = 0 ↔ true = false ∨ baseWeights p = 0 ∧ p ≠ .low :=
            iff_of_false more.ne' fun either => either.elim nofun unlike
          by_cases low : p = .low
          · subst low
            exact some (by linarith [enough active]) fun both => both.2 rfl
          · rcases (nonneg p).eq_or_lt with zero | weighty
            · have unshared : reweighted baseWeights depths paused p = 0 := by
                rw [reweighted_active nonneg active, ← zero, zero_div, mul_zero, add_zero]
              exact iff_of_true (computeEffectiveWeights_zero unshared fun same => absurd same low) (.inr ⟨zero.symm, low⟩)
            · exact some ((lt_min weighty (minLow_pos _)).trans_le (computeEffectiveWeights_ge nonneg working active))
                fun both => weighty.ne' both.1

def weightOf (critical high normal low : ℚ) : PriorityClass → ℚ
  | .critical => critical
  | .high => high
  | .normal => normal
  | .low => low

theorem redistributes_default : ∃ weights, exactWeights (weightOf 50 25 15 10) (fun p => if p = .critical then 0 else 3)
    (fun _ => false) = some weights ∧
      Redistributes (weightOf 50 25 15 10) (fun p => if p = .critical then 0 else 3) (fun _ => false) weights :=
  (redistributes_iff (fun p => by cases p <;> decide) (by decide +kernel)).mpr
    (.inr ⟨by decide +kernel, fun _ => by decide +kernel⟩)

/-- The low class has no weight of its own, and nobody has more than one unit to give. -/
theorem not_redistributes : ¬∀ (base : PriorityClass → ℚ) (depths : PriorityClass → ℕ)
    (paused : PriorityClass → Bool), (∀ p, 0 ≤ base p) → 0 < ∑ p, base p →
      ∃ weights, exactWeights base depths paused = some weights ∧ Redistributes base depths paused weights := by
  intro claimed
  obtain ⟨weights, found, fair⟩ := claimed (weightOf (1 / 2) 0 0 0) (fun _ => 1) (fun _ => false)
    (fun p => by cases p <;> decide +kernel) (by decide +kernel)
  have least := fair.floor rfl
  rw [exactWeights, if_neg (by decide +kernel)] at found
  cases found
  exact absurd least (by decide +kernel)

end SubTrackr.FairQueue
