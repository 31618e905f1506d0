import SubTrackr.Lib.Balance

namespace SubTrackr.FairQueue

open List Lib

inductive PriorityClass
  | critical
  | high
  | normal
  | low
  deriving DecidableEq

def PRIORITY_ORDER : List PriorityClass := [.critical, .high, .normal, .low]

instance : Fintype PriorityClass where
  elems := ⟨PRIORITY_ORDER, by decide⟩
  complete p := by cases p <;> decide

def LOW_PRIORITY_MIN_CAPACITY_PERCENT : ℚ := 1

section Compute

variable (baseWeights : PriorityClass → ℚ) (depths : PriorityClass → ℕ) (paused : PriorityClass → Bool)

def isActive (p : PriorityClass) : Bool := !paused p && 0 < depths p

def redistributable : ℚ := ((PRIORITY_ORDER.filter fun p => paused p || depths p == 0).map baseWeights).sum

def activeWeightSum : ℚ := ((PRIORITY_ORDER.filter (isActive depths paused)).map baseWeights).sum

/-- The base weights with those of paused and empty queues shared out among the others. -/
def reweighted (p : PriorityClass) : ℚ :=
  let zeroed := if paused p || depths p == 0 then 0 else baseWeights p
  if PRIORITY_ORDER.filter (isActive depths paused) ≠ [] ∧ 0 < redistributable baseWeights depths paused ∧
      isActive depths paused p then
    zeroed + redistributable baseWeights depths paused * (baseWeights p / activeWeightSum baseWeights depths paused)
  else zeroed

def minLow (effective : PriorityClass → ℚ) : ℚ :=
  LOW_PRIORITY_MIN_CAPACITY_PERCENT / 100 * max (PRIORITY_ORDER.map effective).sum 100

def donate (least : ℚ) (state : (PriorityClass → ℚ) × ℚ) (donor : PriorityClass) : (PriorityClass → ℚ) × ℚ :=
  if state.2 ≤ 0 then state
  else
    let take := min state.2 (state.1 donor - least)
    let reduced := Function.update state.1 donor (state.1 donor - take)
    (Function.update reduced .low (reduced .low + take), state.2 - take)

def computeEffectiveWeights : PriorityClass → ℚ :=
  let effective := reweighted baseWeights depths paused
  let least := minLow effective
  if isActive depths paused .low ∧ effective .low < least then
    let donors := PRIORITY_ORDER.filter fun p => p ≠ .low ∧ least < effective p
    (donors.foldl (donate least) (effective, least - effective .low)).1
  else effective

end Compute

section Select

variable (depths : PriorityClass → ℕ) (effectiveWeights : PriorityClass → ℚ) (paused : PriorityClass → Bool)

def consider (state : (PriorityClass → ℚ) × Option (PriorityClass × ℚ)) (p : PriorityClass) :
    (PriorityClass → ℚ) × Option (PriorityClass × ℚ) :=
  if paused p || depths p == 0 then state
  else
    let deficit := state.1 p + effectiveWeights p
    (Function.update state.1 p deficit, if state.2.all (·.2 < deficit) then some (p, deficit) else state.2)

def selectNextPriority (deficits : PriorityClass → ℚ) : Option PriorityClass × (PriorityClass → ℚ) :=
  match PRIORITY_ORDER.foldl (consider depths effectiveWeights paused) (deficits, none) with
  | (deficits, none) => (none, deficits)
  | (deficits, some (best, _)) =>
    let weightSum := (PRIORITY_ORDER.map fun p => if isActive depths paused p then effectiveWeights p else 0).sum
    (some best,
      Function.update deficits best (deficits best - if 0 < weightSum then weightSum else effectiveWeights best))

end Select

section Effective

variable {baseWeights : PriorityClass → ℚ} {depths : PriorityClass → ℕ} {paused : PriorityClass → Bool}

theorem order_nodup : PRIORITY_ORDER.Nodup := by decide

theorem mem_order (p : PriorityClass) : p ∈ PRIORITY_ORDER := by cases p <;> decide

theorem sum_order (f : PriorityClass → ℚ) : (PRIORITY_ORDER.map f).sum = ∑ p, f p := rfl

theorem idle_eq (p : PriorityClass) : (paused p || depths p == 0) = !isActive depths paused p := by
  unfold isActive
  cases paused p <;> cases depths p <;> rfl

theorem sum_filter_order (f : PriorityClass → ℚ) (test : PriorityClass → Bool) :
    ((PRIORITY_ORDER.filter test).map f).sum = ∑ p, if test p then f p else 0 := by
  rw [← sum_order]
  simp only [PRIORITY_ORDER, filter_cons, filter_nil, map_cons, map_nil, sum_cons]
  cases test .critical <;> cases test .high <;> cases test .normal <;> cases test .low <;> simp

theorem active_filter_ne_nil {p : PriorityClass} (active : isActive depths paused p = true) :
    PRIORITY_ORDER.filter (isActive depths paused) ≠ [] :=
  ne_nil_of_mem (mem_filter.mpr ⟨mem_order p, active⟩)

theorem reweighted_idle {p : PriorityClass} (idle : isActive depths paused p = false) :
    reweighted baseWeights depths paused p = 0 := by
  unfold reweighted
  rw [idle_eq, idle]
  simp

theorem redistributable_eq :
    redistributable baseWeights depths paused = ∑ p, if isActive depths paused p then 0 else baseWeights p := by
  unfold redistributable
  rw [sum_filter_order]
  refine Finset.sum_congr rfl fun p _ => ?_
  rw [idle_eq]
  cases isActive depths paused p <;> rfl

theorem activeWeightSum_eq :
    activeWeightSum baseWeights depths paused = ∑ p, if isActive depths paused p then baseWeights p else 0 :=
  sum_filter_order _ _

theorem weights_split : activeWeightSum baseWeights depths paused + redistributable baseWeights depths paused =
    ∑ p, baseWeights p := by
  rw [activeWeightSum_eq, redistributable_eq, ← Finset.sum_add_distrib]
  refine Finset.sum_congr rfl fun p _ => ?_
  split
  · exact add_zero _
  · exact zero_add _

section Shared

variable (nonneg : ∀ p, 0 ≤ baseWeights p)
include nonneg

theorem redistributable_nonneg : 0 ≤ redistributable baseWeights depths paused := by
  rw [redistributable_eq]
  refine Finset.sum_nonneg fun p _ => ?_
  split
  · exact le_rfl
  · exact nonneg p

theorem activeWeightSum_nonneg : 0 ≤ activeWeightSum baseWeights depths paused := by
  rw [activeWeightSum_eq]
  refine Finset.sum_nonneg fun p _ => ?_
  split
  · exact nonneg p
  · exact le_rfl

theorem reweighted_active {p : PriorityClass} (active : isActive depths paused p = true) :
    reweighted baseWeights depths paused p = baseWeights p +
      redistributable baseWeights depths paused * (baseWeights p / activeWeightSum baseWeights depths paused) := by
  unfold reweighted
  rw [idle_eq, active]
  simp only [Bool.not_true, Bool.false_eq_true, if_false, and_true]
  split
  · rfl
  · rename_i nothing
    have none : redistributable baseWeights depths paused = 0 := by
      by_contra some
      exact nothing ⟨active_filter_ne_nil active, lt_of_le_of_ne (redistributable_nonneg nonneg) (Ne.symm some)⟩
    rw [none, zero_mul, add_zero]

theorem reweighted_sum (some : 0 < activeWeightSum baseWeights depths paused) :
    ∑ q, reweighted baseWeights depths paused q = ∑ q, baseWeights q := by
  have each (q : PriorityClass) : reweighted baseWeights depths paused q =
      (if isActive depths paused q then baseWeights q else 0) *
        (1 + redistributable baseWeights depths paused / activeWeightSum baseWeights depths paused) := by
    split
    · rename_i active
      rw [reweighted_active nonneg active]
      ring
    · rename_i idle
      rw [reweighted_idle (Bool.eq_false_iff.mpr idle), zero_mul]
  rw [Finset.sum_congr rfl fun q _ => each q, ← Finset.sum_mul, ← activeWeightSum_eq, mul_add, mul_one,
    mul_div_cancel₀ _ some.ne', weights_split]

theorem reweighted_ge {p : PriorityClass} (active : isActive depths paused p = true) :
    baseWeights p ≤ reweighted baseWeights depths paused p := by
  rw [reweighted_active nonneg active]
  have more := mul_nonneg (@redistributable_nonneg _ depths paused nonneg)
    (div_nonneg (nonneg p) (@activeWeightSum_nonneg _ depths paused nonneg))
  linarith

end Shared

theorem activeWeightSum_pos (pos : ∀ p, 0 < baseWeights p) {p : PriorityClass}
    (active : isActive depths paused p = true) : 0 < activeWeightSum baseWeights depths paused := by
  rw [activeWeightSum_eq]
  refine Finset.sum_pos' (fun q _ => ?_) ⟨p, Finset.mem_univ p, ?_⟩
  · split
    · exact (pos q).le
    · exact le_rfl
  · rw [if_pos active]
    exact pos p

section Donate

variable {least : ℚ} {effective : PriorityClass → ℚ} {remaining : ℚ} {donors : List PriorityClass}

theorem sum_update (f : PriorityClass → ℚ) (p : PriorityClass) (v : ℚ) : ∑ q, Function.update f p v q = ∑ q, f q + (v - f p) := by
  rw [Finset.sum_update_of_mem (Finset.mem_univ p), ← Finset.add_sum_erase _ f (Finset.mem_univ p), Finset.sdiff_singleton_eq_erase]
  ring

theorem donate_eq (due : 0 ≤ remaining) {donor : PriorityClass} (other : donor ≠ .low)
    (rich : least < effective donor) : donate least (effective, remaining) donor =
      (Function.update (Function.update effective donor (effective donor - min remaining (effective donor - least)))
        .low (effective .low + min remaining (effective donor - least)), remaining - min remaining (effective donor - least)) := by
  unfold donate
  split
  · rename_i done
    have none : remaining = 0 := le_antisymm done due
    rw [none, min_eq_left (by linarith), sub_zero, sub_zero, add_zero, Function.update_eq_self, Function.update_eq_self]
  · dsimp only
    rw [Function.update_of_ne (Ne.symm other)]

theorem donations (due : 0 ≤ remaining) (distinct : donors.Nodup) (others : .low ∉ donors)
    (rich : ∀ donor ∈ donors, least < effective donor) :
    let final := (donors.foldl (donate least) (effective, remaining)).1
    ∑ p, final p = ∑ p, effective p ∧
      final .low = effective .low + min remaining (donors.map fun p => effective p - least).sum ∧
      (∀ p ∈ donors, least ≤ final p) ∧ ∀ p, p ≠ .low → p ∉ donors → final p = effective p := by
  induction donors generalizing effective remaining with
  | nil =>
    refine ⟨rfl, ?_, nofun, fun _ _ _ => rfl⟩
    rw [List.map_nil, List.sum_nil, min_eq_right due, add_zero]
    rfl
  | cons donor donors ih =>
    obtain ⟨new, distinct⟩ := List.nodup_cons.mp distinct
    obtain ⟨notFirst, others⟩ := not_or.mp (fun h => others (List.mem_cons.mpr h))
    have other : donor ≠ .low := Ne.symm notFirst
    have more := rich donor (.head _)
    obtain ⟨take, taken⟩ : ∃ take, take = min remaining (effective donor - least) := ⟨_, rfl⟩
    obtain ⟨moved, movedEq⟩ : ∃ moved, moved = Function.update (Function.update effective donor (effective donor - take))
        .low (effective .low + take) := ⟨_, rfl⟩
    rw [List.foldl_cons, donate_eq due other more, ← taken, ← movedEq]
    have kept (p : PriorityClass) (notLow : p ≠ .low) (notDonor : p ≠ donor) : moved p = effective p := by
      rw [movedEq, Function.update_of_ne notLow, Function.update_of_ne notDonor]
    have low : moved .low = effective .low + take := by
      rw [movedEq, Function.update_self]
    have gave : moved donor = effective donor - take := by
      rw [movedEq, Function.update_of_ne other, Function.update_self]
    have sum : ∑ p, moved p = ∑ p, effective p := by
      rw [movedEq, sum_update, sum_update, Function.update_of_ne (Ne.symm other)]
      ring
    have same (d : PriorityClass) (member : d ∈ donors) : moved d = effective d :=
      kept d (fun same => others (same ▸ member)) (fun same => new (same ▸ member))
    have rich' : ∀ d ∈ donors, least < moved d := by
      intro d member
      rw [same d member]
      exact rich d (.tail _ member)
    have room : take ≤ effective donor - least := taken ▸ min_le_right _ _
    have left : 0 ≤ remaining - take := sub_nonneg.mpr (taken ▸ min_le_left _ _)
    obtain ⟨sum', low', least', kept'⟩ := ih left distinct others rich'
    refine ⟨sum'.trans sum, ?_, ?_, ?_⟩
    · have rest : 0 ≤ (donors.map fun p => effective p - least).sum := by
        refine List.sum_nonneg fun x mem => ?_
        obtain ⟨d, member, rfl⟩ := List.mem_map.mp mem
        linarith [rich d (.tail _ member)]
      rw [low', low, List.map_congr_left fun d member => by rw [same d member], List.map_cons, List.sum_cons, taken]
      rcases le_total remaining (effective donor - least) with all | part
      · rw [min_eq_left all, sub_self, min_eq_left rest, min_eq_left (by linarith), add_zero]
      · rw [min_eq_right part, add_assoc, ← min_add_add_left, add_sub_cancel]
    · intro p member
      rcases List.mem_cons.mp member with rfl | member
      · rw [kept' p other new, gave]
        linarith
      · exact least' p member
    · intro p notLow absent
      rw [List.mem_cons, not_or] at absent
      rw [kept' p notLow absent.2, kept p notLow absent.1]

end Donate

def surplus (least : ℚ) (effective : PriorityClass → ℚ) : ℚ :=
  ∑ p, if p ≠ .low ∧ least < effective p then effective p - least else 0

structure ToppedUp (least : ℚ) (effective final : PriorityClass → ℚ) : Prop where
  total : ∑ p, final p = ∑ p, effective p
  low : final .low = effective .low + min (least - effective .low) (surplus least effective)
  rich (p : PriorityClass) : p ≠ .low → least < effective p → least ≤ final p
  others (p : PriorityClass) : p ≠ .low → effective p ≤ least → final p = effective p

theorem computeEffectiveWeights_cases :
    computeEffectiveWeights baseWeights depths paused = reweighted baseWeights depths paused ∧ (isActive depths paused .low = true →
        minLow (reweighted baseWeights depths paused) ≤ reweighted baseWeights depths paused .low) ∨
      isActive depths paused .low = true ∧
        reweighted baseWeights depths paused .low < minLow (reweighted baseWeights depths paused) ∧
        ToppedUp (minLow (reweighted baseWeights depths paused)) (reweighted baseWeights depths paused)
          (computeEffectiveWeights baseWeights depths paused) := by
  unfold computeEffectiveWeights
  generalize reweighted baseWeights depths paused = effective
  dsimp only
  split
  · rename_i short
    have rich : ∀ p ∈ PRIORITY_ORDER.filter fun p => p ≠ .low ∧ minLow effective < effective p, minLow effective < effective p :=
      fun p mem => (of_decide_eq_true (List.mem_filter.mp mem).2).2
    obtain ⟨total, low, least, kept⟩ := @donations _ _ (minLow effective - effective .low) _ (sub_nonneg.mpr short.2.le)
      (order_nodup.filter _) (by simp) rich
    refine .inr ⟨short.1, short.2, total, ?_, fun p other more => ?_, fun p other few => ?_⟩
    · rw [low, sum_filter_order]
      simp only [decide_eq_true_eq]
      rfl
    · exact least p (List.mem_filter.mpr ⟨mem_order p, decide_eq_true ⟨other, more⟩⟩)
    · refine kept p other fun donor => ?_
      linarith [rich p donor]
  · rename_i enough
    exact .inl ⟨rfl, fun active => not_lt.mp fun short => enough ⟨active, short⟩⟩

def guaranteed (baseWeights : PriorityClass → ℚ) (p : PriorityClass) : ℚ := min (baseWeights p) (minLow baseWeights)

theorem minLow_pos (effective : PriorityClass → ℚ) : 0 < minLow effective := by
  unfold minLow LOW_PRIORITY_MIN_CAPACITY_PERCENT
  have hundred : (100 : ℚ) ≤ max (PRIORITY_ORDER.map effective).sum 100 := le_max_right _ _
  linarith

theorem guaranteed_pos (pos : ∀ p, 0 < baseWeights p) (p : PriorityClass) : 0 < guaranteed baseWeights p :=
  lt_min (pos p) (minLow_pos _)

theorem computeEffectiveWeights_zero {p : PriorityClass} (none : reweighted baseWeights depths paused p = 0)
    (idle : p = .low → isActive depths paused .low = false) : computeEffectiveWeights baseWeights depths paused p = 0 := by
  obtain ⟨same, _⟩ | ⟨active, _, topped⟩ := @computeEffectiveWeights_cases baseWeights depths paused
  · rw [same, none]
  · have other : p ≠ .low := by
      intro low
      rw [idle low] at active
      cases active
    rw [topped.others p other (none.trans_le (minLow_pos _).le), none]

theorem computeEffectiveWeights_idle {p : PriorityClass} (idle : isActive depths paused p = false) :
    computeEffectiveWeights baseWeights depths paused p = 0 :=
  computeEffectiveWeights_zero (reweighted_idle idle) fun low => low ▸ idle

section Spec

variable (nonneg : ∀ p, 0 ≤ baseWeights p) (some : 0 < activeWeightSum baseWeights depths paused)
include nonneg some

theorem minLow_reweighted : minLow (reweighted baseWeights depths paused) = minLow baseWeights := by
  unfold minLow
  rw [sum_order, sum_order, reweighted_sum nonneg some]

theorem computeEffectiveWeights_sum : ∑ q, computeEffectiveWeights baseWeights depths paused q = ∑ q, baseWeights q := by
  rw [← reweighted_sum nonneg some]
  obtain ⟨same, _⟩ | ⟨_, _, topped⟩ := @computeEffectiveWeights_cases baseWeights depths paused
  · rw [same]
  · exact topped.total

theorem computeEffectiveWeights_ge {q : PriorityClass} (working : isActive depths paused q = true) :
    guaranteed baseWeights q ≤ computeEffectiveWeights baseWeights depths paused q := by
  have share := reweighted_ge nonneg working
  obtain ⟨same, _⟩ | ⟨_, short, topped⟩ := @computeEffectiveWeights_cases baseWeights depths paused
  · rw [same]
    exact (min_le_left _ _).trans share
  · rw [minLow_reweighted nonneg some] at short topped
    by_cases isLow : q = .low
    · subst isLow
      refine (min_le_left _ _).trans (share.trans ?_)
      rw [topped.low]
      refine le_add_of_nonneg_right (le_min (sub_nonneg.mpr short.le) (Finset.sum_nonneg fun p _ => ?_))
      split
      · rename_i more
        exact sub_nonneg.mpr more.2.le
      · exact le_rfl
    · rcases lt_or_ge (minLow baseWeights) (reweighted baseWeights depths paused q) with more | few
      · exact (min_le_right _ _).trans (topped.rich q isLow more)
      · rw [topped.others q isLow few]
        exact (min_le_left _ _).trans share

end Spec

theorem computeEffectiveWeights_spec (pos : ∀ p, 0 < baseWeights p) {p : PriorityClass}
    (active : isActive depths paused p = true) :
    ∑ q, computeEffectiveWeights baseWeights depths paused q = ∑ q, baseWeights q ∧
      (∀ q, isActive depths paused q = false → computeEffectiveWeights baseWeights depths paused q = 0) ∧
      ∀ q, isActive depths paused q = true → guaranteed baseWeights q ≤ computeEffectiveWeights baseWeights depths paused q := by
  have nonneg : ∀ p, 0 ≤ baseWeights p := fun p => (pos p).le
  have some := activeWeightSum_pos pos active
  exact ⟨computeEffectiveWeights_sum nonneg some, fun q => computeEffectiveWeights_idle,
    fun q => computeEffectiveWeights_ge nonneg some⟩

theorem computeEffectiveWeights_congr {depths' : PriorityClass → ℕ} {paused' : PriorityClass → Bool}
    (same : isActive depths paused = isActive depths' paused') :
    computeEffectiveWeights baseWeights depths paused = computeEffectiveWeights baseWeights depths' paused' := by
  have equal : reweighted baseWeights depths paused = reweighted baseWeights depths' paused' := by
    funext p
    unfold reweighted redistributable activeWeightSum
    simp only [idle_eq, same]
  unfold computeEffectiveWeights
  rw [equal, same]

end Effective

section Selection

variable {depths : PriorityClass → ℕ} {effectiveWeights : PriorityClass → ℚ} {paused : PriorityClass → Bool}
  {deficits : PriorityClass → ℚ}

structure Considered (depths : PriorityClass → ℕ) (effectiveWeights : PriorityClass → ℚ)
    (paused : PriorityClass → Bool) (deficits : PriorityClass → ℚ) (seen : List PriorityClass)
    (state : (PriorityClass → ℚ) × Option (PriorityClass × ℚ)) : Prop where
  added (p : PriorityClass) : state.1 p =
    if p ∈ seen ∧ isActive depths paused p = true then deficits p + effectiveWeights p else deficits p
  none : state.2 = none → ∀ p ∈ seen, isActive depths paused p = false
  best (p : PriorityClass) (d : ℚ) : state.2 = some (p, d) → isActive depths paused p = true ∧ p ∈ seen ∧ d = state.1 p ∧
    ∀ q ∈ seen, isActive depths paused q = true → state.1 q ≤ d

theorem consider_considered {seen : List PriorityClass} {state : (PriorityClass → ℚ) × Option (PriorityClass × ℚ)}
    (considered : Considered depths effectiveWeights paused deficits seen state) {p : PriorityClass} (new : p ∉ seen) :
    Considered depths effectiveWeights paused deficits (p :: seen) (consider depths effectiveWeights paused state p) := by
  unfold consider
  rw [idle_eq]
  cases active : isActive depths paused p with
  | false =>
    rw [Bool.not_false, if_pos rfl]
    have skip {q : PriorityClass} (working : isActive depths paused q = true) : q ∈ p :: seen ↔ q ∈ seen := by
      rw [mem_cons, or_iff_right]
      rintro rfl
      rw [active] at working
      cases working
    constructor
    · intro q
      rw [considered.added q]
      by_cases working : isActive depths paused q = true
      · simp only [skip working]
      · rw [if_neg fun both => working both.2, if_neg fun both => working both.2]
    · intro nothing q mem
      rcases mem_cons.mp mem with rfl | mem
      · exact active
      · exact considered.none nothing q mem
    · intro q d found
      obtain ⟨working, mem, same, most⟩ := considered.best q d found
      exact ⟨working, .tail _ mem, same, fun q' mem' working' => most q' ((skip working').mp mem') working'⟩
  | true =>
    rw [Bool.not_true, if_neg Bool.false_ne_true]
    have old : state.1 p = deficits p := by
      rw [considered.added p, if_neg fun both => new both.1]
    have other {q : PriorityClass} (mem : q ∈ seen) : q ≠ p := by
      rintro rfl
      exact new mem
    constructor
    · intro q
      dsimp only
      by_cases same : q = p
      · subst same
        rw [Function.update_self, if_pos ⟨.head _, active⟩, old]
      · rw [Function.update_of_ne same, considered.added q]
        simp only [mem_cons, same, false_or]
    · intro nothing
      exfalso
      dsimp only at nothing
      split at nothing
      · cases nothing
      · rename_i behind
        rw [nothing] at behind
        exact behind rfl
    · intro q d found
      dsimp only at found ⊢
      split at found
      · rename_i ahead
        cases found
        refine ⟨active, .head _, by rw [Function.update_self], fun q mem working => ?_⟩
        rcases mem_cons.mp mem with rfl | mem
        · rw [Function.update_self]
        · rw [Function.update_of_ne (other mem)]
          cases prev : state.2 with
          | none =>
            rw [considered.none prev q mem] at working
            cases working
          | some best =>
            rw [prev] at ahead
            have more : best.2 < state.1 p + effectiveWeights p := of_decide_eq_true ahead
            exact ((considered.best _ _ prev).2.2.2 q mem working).trans more.le
      · rename_i behind
        rw [found] at behind
        have less : ¬d < state.1 p + effectiveWeights p := fun more => behind (decide_eq_true more)
        obtain ⟨working, mem, same, most⟩ := considered.best q d found
        refine ⟨working, .tail _ mem, ?_, fun q' mem' working' => ?_⟩
        · rw [Function.update_of_ne (other mem)]
          exact same
        · rcases mem_cons.mp mem' with rfl | mem'
          · rw [Function.update_self]
            exact not_lt.mp less
          · rw [Function.update_of_ne (other mem')]
            exact most q' mem' working'

theorem order_considered (depths : PriorityClass → ℕ) (effectiveWeights : PriorityClass → ℚ)
    (paused : PriorityClass → Bool) (deficits : PriorityClass → ℚ) :
    Considered depths effectiveWeights paused deficits [.low, .normal, .high, .critical]
      (PRIORITY_ORDER.foldl (consider depths effectiveWeights paused) (deficits, none)) := by
  have start : Considered depths effectiveWeights paused deficits [] (deficits, none) := ⟨fun _ => rfl, nofun, nofun⟩
  have critical := consider_considered start (p := .critical) (by decide)
  have high := consider_considered critical (p := .high) (by decide)
  have normal := consider_considered high (p := .normal) (by decide)
  exact consider_considered normal (by decide)

theorem seen_all (p : PriorityClass) : p ∈ [PriorityClass.low, .normal, .high, .critical] := by cases p <;> decide

theorem selectNextPriority_none (none : ∀ p, isActive depths paused p = false) :
    selectNextPriority depths effectiveWeights paused deficits = (Option.none, deficits) := by
  have considered := order_considered depths effectiveWeights paused deficits
  unfold selectNextPriority
  rcases found : PRIORITY_ORDER.foldl (consider depths effectiveWeights paused) (deficits, Option.none) with
    ⟨after, _ | ⟨best, most⟩⟩
  · rw [found] at considered
    have same : after = deficits := by
      funext p
      rw [show after p = _ from considered.added p, none p, if_neg fun both => Bool.false_ne_true both.2]
    dsimp only
    rw [same]
  · rw [found] at considered
    have active := (considered.best best most rfl).1
    rw [none best] at active
    cases active

theorem selectNextPriority_round (nonneg : ∀ p, 0 ≤ effectiveWeights p)
    (idle : ∀ p, isActive depths paused p = false → effectiveWeights p = 0) (some : 0 < ∑ p, effectiveWeights p)
    {p : PriorityClass} (active : isActive depths paused p = true) :
    ∃ best after, selectNextPriority depths effectiveWeights paused deficits = (Option.some best, after) ∧
      Round (∑ p, effectiveWeights p) effectiveWeights best deficits after := by
  have considered := order_considered depths effectiveWeights paused deficits
  have added (p : PriorityClass) :
      (PRIORITY_ORDER.foldl (consider depths effectiveWeights paused) (deficits, none)).1 p =
        deficits p + effectiveWeights p := by
    rw [considered.added p]
    by_cases working : isActive depths paused p = true
    · rw [if_pos ⟨seen_all p, working⟩]
    · rw [if_neg fun both => working both.2, idle p (Bool.eq_false_iff.mpr working), add_zero]
  have whole : (PRIORITY_ORDER.map fun p => if isActive depths paused p then effectiveWeights p else 0).sum =
      ∑ p, effectiveWeights p := by
    rw [sum_order]
    refine Finset.sum_congr rfl fun p _ => ?_
    split
    · rfl
    · rename_i resting
      exact (idle p (Bool.eq_false_iff.mpr resting)).symm
  unfold selectNextPriority
  rcases found : PRIORITY_ORDER.foldl (consider depths effectiveWeights paused) (deficits, none) with
    ⟨after, _ | ⟨best, most⟩⟩
  · rw [found] at considered
    rw [considered.none rfl p (seen_all p)] at active
    cases active
  · rw [found] at considered added
    obtain ⟨-, -, same, richest⟩ := considered.best best most rfl
    refine ⟨best, _, rfl, nonneg, rfl, ?_, ?_⟩
    · intro p share
      rw [← show after p = _ from added p, ← show after best = _ from added best, ← show most = after best from same]
      refine richest p (seen_all p) ?_
      by_contra resting
      exact share (idle p (Bool.eq_false_iff.mpr resting))
    · intro p
      rw [whole, if_pos some]
      by_cases pays : p = best
      · subst pays
        rw [Function.update_self, if_pos rfl, show after p = _ from added p]
      · rw [Function.update_of_ne pays, if_neg pays, sub_zero, show after p = _ from added p]

end Selection

end SubTrackr.FairQueue
