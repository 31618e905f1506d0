import SubTrackr.Metering.EntryPoints
import SubTrackr.Lib.Sums
import SubTrackr.Lib.Legs
import Mathlib.Tactic.Ring

namespace SubTrackr.Metering

open List Lib Soroban

def unitsCharged (s : State) (sub : Nat) (metric : String) (period : TimeRange) : Option Nat :=
  match calculateUsageCharge s sub period with
  | .ok charge => (charge.lines.find? (·.metric = metric)).map (·.units)
  | .error _ => none

def periods (points : List Nat) : List TimeRange := (legs points).map fun leg => ⟨leg.1, leg.2⟩

/-- Every bucket from the first endpoint to the last is counted in one period, and the units charged for the periods
    add up to those of the whole. -/
structure BilledOnce (s : State) (sub : Nat) (metric : String) (buckets : List UsageBucket) (first last : Nat)
    (points : List Nat) : Prop where
  once : ∀ b ∈ buckets, b.within ⟨first, last⟩ = true → (periods points).countP b.within = 1
  total : ∃ units : List Nat, (periods points).map (unitsCharged s sub metric) = units.map some ∧
    unitsCharged s sub metric ⟨first, last⟩ = some (min units.sum u64Max)

section Usage

variable {s : State} {sub : Nat} {metric : String} {m : MeterState} {period : TimeRange}

theorem usageInRange_eq (buckets : List UsageBucket) (period : TimeRange) : usageInRange buckets period =
    min ((buckets.filter (·.within period)).map (·.units)).sum u64Max := by
  unfold usageInRange
  rw [← foldl_filter, foldl_capped _ _ (fun _ _ => Nat.zero_le _) (Nat.zero_le _), Nat.zero_add]

theorem find_chargeLine (period : TimeRange) (names : List String) (mem : metric ∈ names)
    (held : s.meter (sub, metric) = some m) :
    ((names.filterMap fun name => (s.meter (sub, name)).map fun state =>
      chargeLine state name (usageInRange state.buckets period)).find? (·.metric = metric)) =
      some (chargeLine m metric (usageInRange m.buckets period)) := by
  induction names with
  | nil => cases mem
  | cons name names ih =>
    by_cases here : name = metric
    · subst here
      rw [filterMap_cons, held, Option.map_some]
      exact find?_cons_of_pos (decide_eq_true rfl)
    · have later := ih ((mem_cons.mp mem).resolve_left fun same => here same.symm)
      rw [filterMap_cons]
      cases s.meter (sub, name) with
      | none => exact later
      | some state =>
        have other : ¬ decide ((chargeLine state name (usageInRange state.buckets period)).metric = metric) = true :=
          fun same => here (of_decide_eq_true same)
        rw [Option.map_some]
        exact (find?_cons_of_neg (p := fun line : ChargeLine => decide (line.metric = metric)) other).trans later

theorem unitsCharged_eq (registered : Registered s) (held : s.meter (sub, metric) = some m)
    (accepted : period.start ≤ period.finish) :
    unitsCharged s sub metric period = some (usageInRange m.buckets period) := by
  have mem : metric ∈ metrics s sub := by
    rw [registered.listed, held]
    exact Option.some_ne_none m
  have line := find_chargeLine period (metrics s sub) mem held
  unfold unitsCharged calculateUsageCharge require
  rw [if_pos accepted]
  exact congrArg (Option.map (·.units)) line

end Usage

section Chain

variable {a b : Nat} {points : List Nat}

theorem within_covers (bucket : UsageBucket) : bucket.within ∘ (fun leg : Nat × Nat => (⟨leg.1, leg.2⟩ : TimeRange)) =
    covers bucket.start := rfl

theorem countP_periods (bucket : UsageBucket) (points : List Nat) :
    (periods points).countP bucket.within = (legs points).countP (covers bucket.start) := by
  rw [periods, countP_map, within_covers]

theorem sum_periods (buckets : List UsageBucket) (ps : List TimeRange) :
    (ps.map fun p => ((buckets.filter (·.within p)).map (·.units)).sum).sum =
      (buckets.map fun b => ps.countP b.within * b.units).sum := by
  induction buckets with
  | nil => simp
  | cons b buckets ih =>
    have split (p : TimeRange) : (((b :: buckets).filter (·.within p)).map (·.units)).sum =
        (if b.within p then b.units else 0) + ((buckets.filter (·.within p)).map (·.units)).sum := by
      rw [filter_cons]
      split <;> simp
    have first : (ps.map fun p => if b.within p then b.units else 0).sum = ps.countP b.within * b.units := by
      clear ih
      induction ps with
      | nil => simp
      | cons p ps ih =>
        rw [map_cons, sum_cons, ih, countP_cons]
        split <;> ring
    simp only [split]
    rw [sum_map_add, first, ih, map_cons, sum_cons]

theorem sum_counted (buckets : List UsageBucket) (count : UsageBucket → Nat) (kept : UsageBucket → Bool)
    (known : ∀ b ∈ buckets, count b = if kept b then 1 else 0) :
    (buckets.map fun b => count b * b.units).sum = ((buckets.filter kept).map (·.units)).sum := by
  induction buckets with
  | nil => rfl
  | cons b buckets ih =>
    rw [map_cons, sum_cons, ih fun b mem => known b (mem_cons_of_mem _ mem), known b (.head _),
      filter_cons]
    split <;> simp

theorem period_accepted {points : List Nat} (sorted : points.IsChain (· ≤ ·)) :
    ∀ p ∈ periods points, p.start ≤ p.finish := by
  intro p mem
  obtain ⟨leg, known, rfl⟩ := mem_map.mp mem
  exact leg_le sorted known

theorem countP_within (sorted : (a :: b :: points).IsChain (· ≤ ·)) (bucket : UsageBucket)
    (within : bucket.within ⟨a, (b :: points).getLast (cons_ne_nil b points)⟩ = true) :
    (periods (a :: b :: points)).countP bucket.within = 1 + (inner (a :: b :: points)).count bucket.start := by
  have bounds := of_decide_eq_true within
  rw [countP_periods, countP_legs sorted bounds.1 bounds.2]

theorem countP_outside (sorted : (a :: b :: points).IsChain (· ≤ ·)) (bucket : UsageBucket)
    (outside : bucket.within ⟨a, (b :: points).getLast (cons_ne_nil b points)⟩ = false) :
    (periods (a :: b :: points)).countP bucket.within = 0 := by
  have bounds := of_decide_eq_false outside
  rw [countP_periods]
  by_cases low : a ≤ bucket.start
  · apply countP_beyond sorted
    rw [getLast_cons (cons_ne_nil b points)]
    exact Nat.lt_of_not_le fun high => bounds ⟨low, high⟩
  · exact (count_before sorted (Nat.lt_of_not_le low)).1

end Chain

section Billing

variable {guard : World → Tx → Prop} {w : World} {sub : Nat} {metric : String} {m : MeterState} {a b : Nat}
  {points : List Nat}

/-- No bucket that starts where two periods meet: then each is billed once, and else it is not. -/
theorem usage_billed_once (reached : Reachable guard w) (stored : w.state.meter (sub, metric) = some m)
    (sorted : (a :: b :: points).IsChain (· ≤ ·)) :
    BilledOnce w.state sub metric m.buckets a ((b :: points).getLast (cons_ne_nil b points)) (a :: b :: points) ↔
      ∀ bucket ∈ m.buckets, bucket.start ∉ inner (a :: b :: points) := by
  have registered := registered_reachable reached
  generalize final : (b :: points).getLast (cons_ne_nil b points) = last
  constructor
  · intro billed bucket listed shared
    have point : bucket.start ∈ a :: b :: points := mem_cons_of_mem _ ((dropLast_sublist _).mem shared)
    have high := le_last sorted point
    rw [getLast_cons (cons_ne_nil b points), final] at high
    have within : bucket.within ⟨a, last⟩ = true := decide_eq_true ⟨first_le sorted point, high⟩
    have once := billed.once bucket listed within
    rw [countP_within sorted bucket (final ▸ within)] at once
    have some := count_pos_iff.mpr shared
    omega
  · intro apart
    have once : ∀ bucket ∈ m.buckets, bucket.within ⟨a, last⟩ = true →
        (periods (a :: b :: points)).countP bucket.within = 1 := by
      intro bucket listed within
      rw [countP_within sorted bucket (final ▸ within), count_eq_zero.mpr (apart bucket listed)]
    have sums : ((periods (a :: b :: points)).map fun p =>
        ((m.buckets.filter (·.within p)).map (·.units)).sum).sum =
          ((m.buckets.filter (·.within ⟨a, last⟩)).map (·.units)).sum := by
      rw [sum_periods]
      apply sum_counted
      intro bucket listed
      cases within : bucket.within ⟨a, last⟩ with
      | true => exact once bucket listed within
      | false => exact countP_outside sorted bucket (final ▸ within)
    refine ⟨once, (periods (a :: b :: points)).map (usageInRange m.buckets), ?_, ?_⟩
    · rw [map_map]
      apply map_congr_left
      intro p listed
      exact unitsCharged_eq registered stored (period_accepted sorted p listed)
    · have whole : a ≤ last := by
        have high := le_last sorted (.head _)
        rwa [getLast_cons (cons_ne_nil b points), final] at high
      rw [unitsCharged_eq registered stored whole, usageInRange_eq, ← sums,
        ← sum_capped _ _ (fun _ _ => Nat.zero_le _) (Nat.zero_le _)]
      exact congrArg (fun units => some (min (List.sum units) u64Max))
        (map_congr_left fun p _ => (usageInRange_eq m.buckets p).symm)

end Billing

def secondDay : World := trial
  [(0, [⟨1⟩], .registerMeter ⟨1⟩ 7 "api_calls" 1 0 86400 0), (100000, [⟨1⟩], .recordMeteredUsage ⟨1⟩ 7 "api_calls" 10)]

def secondDayMeter : MeterState where
  metric := "api_calls"
  total := 10
  lastTimestamp := 100000
  periodSecs := 86400
  includedUnits := 0
  unitPrice := 1
  alertThreshold := 0
  alertFired := false
  pricingModel := .flat
  tiers := []
  buckets := [⟨86400, 10⟩]

theorem usage_billed_once_secondDay :
    BilledOnce secondDay.state 7 "api_calls" [⟨86400, 10⟩] 0 172800 [0, 90000, 172800] := by
  have stored : secondDay.state.meter (7, "api_calls") = some secondDayMeter := by decide +kernel
  have sorted : [0, 90000, 172800].IsChain (· ≤ ·) := by decide
  exact (usage_billed_once (trial_reachable _) stored sorted).mpr (by decide)

theorem usage_billed_twice : Reachable Ledger.anyTx secondDay ∧
    unitsCharged secondDay.state 7 "api_calls" ⟨0, 86400⟩ = some 10 ∧
    unitsCharged secondDay.state 7 "api_calls" ⟨86400, 172800⟩ = some 10 ∧
    unitsCharged secondDay.state 7 "api_calls" ⟨0, 172800⟩ = some 10 ∧
    ¬ BilledOnce secondDay.state 7 "api_calls" [⟨86400, 10⟩] 0 172800 [0, 86400, 172800] := by
  refine ⟨trial_reachable _, by decide +kernel, by decide +kernel, by decide +kernel, fun billed => ?_⟩
  exact absurd (billed.once ⟨86400, 10⟩ (by decide) (by decide)) (by decide)

end SubTrackr.Metering
