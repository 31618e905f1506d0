import SubTrackr.Tax.TaxService
import SubTrackr.Lib.StableSort

namespace SubTrackr.Tax

open Lib List

structure TaxRateChangeEvent where
  (oldRateBps newRateBps effectiveFrom : ℚ)

structure MidCycleTaxChange where
  jurisdictionKey : String
  oldRateBps : ℚ
  (newRateBps effectiveFrom periodStart periodEnd proratedTaxOld proratedTaxNew totalTax : ℚ)

structure Period where
  (periodStart periodEnd subtotal : ℚ)
  jurisdictionKey : String

namespace Period

variable (p : Period)

def periodDuration : ℚ := p.periodEnd - p.periodStart

def segmentTax (duration rateBps : ℚ) : ℚ :=
  round (round (p.subtotal * (duration / p.periodDuration)) * rateBps / BPS_SCALE)

def segments (currentStart : ℚ) (currentRateBps : Option ℚ) : List TaxRateChangeEvent → List MidCycleTaxChange
  | [] =>
    match currentRateBps with
    | none => []
    | some rate =>
      if currentStart < p.periodEnd then
        let remainingTax := p.segmentTax (p.periodEnd - currentStart) rate
        [⟨p.jurisdictionKey, rate, rate, currentStart, currentStart, p.periodEnd, 0, remainingTax, remainingTax⟩]
      else []
  | change :: rest =>
    let rate := currentRateBps.getD change.oldRateBps
    let tax := p.segmentTax (change.effectiveFrom - currentStart) rate
    ⟨p.jurisdictionKey, rate, change.newRateBps, change.effectiveFrom, currentStart, change.effectiveFrom, tax, 0, tax⟩ ::
      segments change.effectiveFrom (some change.newRateBps) rest

def relevant (c : TaxRateChangeEvent) : Bool := p.periodStart < c.effectiveFrom && c.effectiveFrom < p.periodEnd

def calculateMidCycleTaxChange (rateChanges : List TaxRateChangeEvent) : List MidCycleTaxChange :=
  if p.periodDuration ≤ 0 then []
  else p.segments p.periodStart none (sortBy (·.effectiveFrom) (rateChanges.filter p.relevant))

def clamp (t : ℚ) : ℚ := max p.periodStart (min p.periodEnd t)

/-- Every rate, times how long it is in force during the period. -/
def weigh (rate since : ℚ) : List TaxRateChangeEvent → ℚ
  | [] => rate * (p.periodEnd - p.clamp since)
  | c :: rest => rate * (p.clamp c.effectiveFrom - p.clamp since) + weigh c.newRateBps c.effectiveFrom rest

def exactTax (rateChanges : List TaxRateChangeEvent) : ℚ :=
  let sorted := sortBy (·.effectiveFrom) rateChanges
  let firstRate := (sorted.head?.map (·.oldRateBps)).getD 0
  p.subtotal * (p.weigh firstRate p.periodStart sorted / p.periodDuration) / BPS_SCALE

structure TimeWeighted (rateChanges : List TaxRateChangeEvent) (result : List MidCycleTaxChange) : Prop where
  empty_iff : result = [] ↔ ¬∃ c ∈ rateChanges, p.periodStart < c.effectiveFrom ∧ c.effectiveFrom < p.periodEnd
  first : ∀ segment ∈ result.head?, segment.periodStart = p.periodStart
  joined : result.IsChain fun a b => a.periodEnd = b.periodStart
  last : ∀ segment ∈ result.getLast?, segment.periodEnd = p.periodEnd
  near : result ≠ [] → |(result.map (·.totalTax)).sum - p.exactTax rateChanges| ≤ result.length
  ordered (reordered : List TaxRateChangeEvent) : (∀ t, rateChanges.filter (fun c => decide (c.effectiveFrom = t)) =
    reordered.filter fun c => decide (c.effectiveFrom = t)) → p.calculateMidCycleTaxChange reordered = result

end Period

/-- In time order each old rate is the new rate of the change before. -/
def Consistent (rateChanges : List TaxRateChangeEvent) : Prop :=
  (sortBy (·.effectiveFrom) rateChanges).IsChain fun c next => c.newRateBps = next.oldRateBps

def IsRate (bps : ℚ) : Prop := 0 ≤ bps ∧ bps ≤ 10000

instance (bps : ℚ) : Decidable (IsRate bps) := inferInstanceAs (Decidable (_ ∧ _))

theorem round_error (x : ℚ) : |round x - x| ≤ 1 / 2 := by
  have low := Int.floor_le (x + 1 / 2)
  have high := Int.lt_floor_add_one (x + 1 / 2)
  unfold round
  rw [abs_le]
  constructor <;> linarith

namespace Period

variable {p : Period} {rate since weight : ℚ} {changes : List TaxRateChangeEvent}

theorem segmentTax_error (bounds : IsRate rate) (duration : ℚ) :
    |p.segmentTax duration rate - p.subtotal * (rate * duration / p.periodDuration) / BPS_SCALE| ≤ 1 := by
  have part := round_error (p.subtotal * (duration / p.periodDuration))
  have tax := round_error (round (p.subtotal * (duration / p.periodDuration)) * rate / BPS_SCALE)
  unfold segmentTax
  generalize round (p.subtotal * (duration / p.periodDuration)) = segmentSubtotal at *
  have scaled : |segmentSubtotal * rate / BPS_SCALE - p.subtotal * (rate * duration / p.periodDuration) / BPS_SCALE| ≤ 1 / 2 := by
    have apart : segmentSubtotal * rate / BPS_SCALE - p.subtotal * (rate * duration / p.periodDuration) / BPS_SCALE =
        (segmentSubtotal - p.subtotal * (duration / p.periodDuration)) * (rate / 10000) := by
      unfold BPS_SCALE
      ring
    rw [apart, abs_mul, abs_of_nonneg (div_nonneg bounds.1 (by norm_num))]
    calc _ ≤ 1 / 2 * (1 : ℚ) := mul_le_mul part (by linarith [bounds.2]) (by linarith [bounds.1]) (by norm_num)
      _ = 1 / 2 := by norm_num
  linarith [abs_sub_le (round (segmentSubtotal * rate / BPS_SCALE)) (segmentSubtotal * rate / BPS_SCALE)
    (p.subtotal * (rate * duration / p.periodDuration) / BPS_SCALE)]

/-- The segments' taxes add up to the tax of the weight, up to one unit for each. -/
def Near (p : Period) (taxes : List MidCycleTaxChange) (weight : ℚ) : Prop :=
  |(taxes.map (·.totalTax)).sum - p.subtotal * (weight / p.periodDuration) / BPS_SCALE| ≤ taxes.length

theorem Near.cons {taxes : List MidCycleTaxChange} {duration : ℚ} {segment : MidCycleTaxChange} (near : p.Near taxes weight)
    (bounds : IsRate rate) (tax : segment.totalTax = p.segmentTax duration rate) :
    p.Near (segment :: taxes) (rate * duration + weight) := by
  have first := @segmentTax_error p _ bounds duration
  have whole : p.subtotal * ((rate * duration + weight) / p.periodDuration) / BPS_SCALE =
      p.subtotal * (rate * duration / p.periodDuration) / BPS_SCALE + p.subtotal * (weight / p.periodDuration) / BPS_SCALE := by
    ring
  unfold Near at *
  rw [map_cons, sum_cons, length_cons, Nat.cast_add_one, tax, whole, add_sub_add_comm]
  linarith [abs_add_le (p.segmentTax duration rate - p.subtotal * (rate * duration / p.periodDuration) / BPS_SCALE)
    ((taxes.map (·.totalTax)).sum - p.subtotal * (weight / p.periodDuration) / BPS_SCALE)]

theorem near_tail (early : since < p.periodEnd) (bounds : IsRate rate) :
    p.Near (p.segments since (some rate) []) (rate * (p.periodEnd - since)) := by
  have nothing : p.Near [] 0 := by simp [Near]
  rw [segments, if_pos early, ← add_zero (rate * _)]
  exact nothing.cons bounds rfl

section Proper

variable (proper : p.periodStart < p.periodEnd)
include proper

theorem clamp_before (before : since ≤ p.periodStart) : p.clamp since = p.periodStart := by
  rw [clamp, min_eq_right (before.trans proper.le), max_eq_left before]

theorem clamp_after (after : p.periodEnd ≤ since) : p.clamp since = p.periodEnd := by
  rw [clamp, min_eq_left after, max_eq_right proper.le]

omit proper in
theorem clamp_within (begun : p.periodStart ≤ since) (early : since ≤ p.periodEnd) : p.clamp since = since := by
  rw [clamp, min_eq_right early, max_eq_right begun]

theorem weigh_after (past : p.periodEnd ≤ since) (later : ∀ c ∈ changes, p.periodEnd ≤ c.effectiveFrom) :
    p.weigh rate since changes = 0 := by
  induction changes generalizing rate since with
  | nil => rw [weigh, clamp_after proper past, sub_self, mul_zero]
  | cons c rest ih =>
    have next := later c (.head _)
    rw [weigh, clamp_after proper past, clamp_after proper next, sub_self, mul_zero, zero_add]
    exact ih next fun d mem => later d (.tail _ mem)

theorem near_segments (begun : p.periodStart ≤ since) (early : since < p.periodEnd) (bounds : IsRate rate)
    (limits : ∀ c ∈ changes, IsRate c.newRateBps) (sorted : changes.Pairwise fun a b => a.effectiveFrom ≤ b.effectiveFrom)
    (inner : ∀ c ∈ changes, p.periodStart < c.effectiveFrom) :
    p.Near (p.segments since (some rate) (changes.filter p.relevant)) (p.weigh rate since changes) := by
  induction changes generalizing rate since with
  | nil =>
    rw [weigh, clamp_within begun early.le]
    exact near_tail early bounds
  | cons c rest ih =>
    obtain ⟨next, sorted⟩ := pairwise_cons.mp sorted
    have beyond := inner c (.head _)
    rw [weigh, clamp_within begun early.le]
    rcases lt_or_ge c.effectiveFrom p.periodEnd with within | past
    · rw [filter_cons_of_pos (by simp [relevant, beyond, within]), clamp_within beyond.le within.le]
      have rests := ih beyond.le within (limits c (.head _)) (fun d mem => limits d (.tail _ mem)) sorted
        fun d mem => inner d (.tail _ mem)
      exact rests.cons bounds rfl
    · have far : ∀ d ∈ c :: rest, p.periodEnd ≤ d.effectiveFrom := by
        rintro d (_ | ⟨_, mem⟩)
        · exact past
        · exact past.trans (next d mem)
      rw [filter_eq_nil_iff.mpr fun d mem => by simp [relevant, far d mem], clamp_after proper past,
        weigh_after proper past fun d mem => far d (.tail _ mem), add_zero]
      exact near_tail early bounds

theorem near_start (before : since ≤ p.periodStart) (limits : ∀ c ∈ changes, IsRate c.oldRateBps ∧ IsRate c.newRateBps)
    (sorted : changes.Pairwise fun a b => a.effectiveFrom ≤ b.effectiveFrom)
    (first : ∀ c ∈ changes.head?, c.oldRateBps = rate) (chained : changes.IsChain fun c next => c.newRateBps = next.oldRateBps)
    (some : changes.filter p.relevant ≠ []) :
    p.Near (p.segments p.periodStart none (changes.filter p.relevant)) (p.weigh rate since changes) := by
  induction changes generalizing rate since with
  | nil => exact absurd rfl some
  | cons c rest ih =>
    obtain ⟨next, sorted'⟩ := pairwise_cons.mp sorted
    rcases le_or_gt c.effectiveFrom p.periodStart with early | beyond
    · have out : ¬p.relevant c = true := by simp [relevant, early]
      rw [filter_cons_of_neg out] at some ⊢
      rw [weigh, clamp_before proper before, clamp_before proper early, sub_self, mul_zero, zero_add]
      obtain ⟨same, chained⟩ := isChain_cons.mp chained
      exact ih early (fun d mem => limits d (.tail _ mem)) sorted' (fun d mem => (same d mem).symm) chained some
    · have inner : ∀ d ∈ c :: rest, p.periodStart < d.effectiveFrom := by
        rintro d (_ | ⟨_, mem⟩)
        · exact beyond
        · exact beyond.trans_le (next d mem)
      have within : p.relevant c = true := by
        by_contra out
        refine some (filter_eq_nil_iff.mpr fun d mem kept => out ?_)
        simp only [relevant, Bool.and_eq_true, decide_eq_true_eq] at kept ⊢
        rcases mem_cons.mp mem with rfl | mem
        · exact kept
        · exact ⟨beyond, (next d mem).trans_lt kept.2⟩
      -- the old rate of the first change that counts is the rate in force
      have near := near_segments proper le_rfl proper (limits c (.head _)).1 (fun d mem => (limits d mem).2) sorted inner
      rw [filter_cons_of_pos within] at near ⊢
      rw [← first c rfl, weigh, clamp_before proper before]
      rwa [weigh, clamp_before proper le_rfl] at near

end Proper

theorem segments_joined (rate : Option ℚ) (early : since < p.periodEnd) (some : rate ≠ none ∨ changes ≠ [])
    (within : ∀ c ∈ changes, c.effectiveFrom < p.periodEnd) :
    (∃ first rest, p.segments since rate changes = first :: rest ∧ first.periodStart = since) ∧
      ((p.segments since rate changes).IsChain fun a b => a.periodEnd = b.periodStart) ∧
      ∀ segment ∈ (p.segments since rate changes).getLast?, segment.periodEnd = p.periodEnd := by
  induction changes generalizing since rate with
  | nil =>
    obtain ⟨r, rfl⟩ := Option.ne_none_iff_exists'.mp (some.resolve_right fun some => some rfl)
    rw [segments, if_pos early]
    refine ⟨⟨_, [], rfl, rfl⟩, .singleton _, fun segment last => ?_⟩
    cases last
    rfl
  | cons c rest ih =>
    obtain ⟨⟨first, others, same, begins⟩, joined, ends⟩ := ih (.some c.newRateBps) (within c (.head _)) (.inl nofun)
      fun d mem => within d (.tail _ mem)
    rw [segments]
    refine ⟨⟨_, _, rfl, rfl⟩, isChain_cons.mpr ⟨fun b head => ?_, joined⟩, fun segment last => ends segment ?_⟩
    · rw [same] at head
      cases head
      exact begins.symm
    · rwa [same, getLast?_cons_cons, ← same] at last

/-- The tax of a period is the time-weighted tax, up to one unit for each segment. -/
theorem calculateMidCycleTaxChange_timeWeighted (p : Period) (proper : p.periodStart < p.periodEnd)
    (consistent : Consistent changes) (limits : ∀ c ∈ changes, IsRate c.oldRateBps ∧ IsRate c.newRateBps) :
    p.TimeWeighted changes (p.calculateMidCycleTaxChange changes) := by
  have run (l : List TaxRateChangeEvent) : p.calculateMidCycleTaxChange l =
      p.segments p.periodStart none ((sortBy (·.effectiveFrom) l).filter p.relevant) := by
    rw [calculateMidCycleTaxChange, if_neg (by unfold periodDuration; linarith), sortBy_filter]
  have listed {c : TaxRateChangeEvent} : c ∈ (sortBy (·.effectiveFrom) changes).filter p.relevant ↔
      c ∈ changes ∧ p.periodStart < c.effectiveFrom ∧ c.effectiveFrom < p.periodEnd := by
    rw [mem_filter, mem_sortBy, relevant, Bool.and_eq_true, decide_eq_true_eq, decide_eq_true_eq]
  have ordered (reordered : List TaxRateChangeEvent) (same : ∀ t, changes.filter (fun c => decide (c.effectiveFrom = t)) =
      reordered.filter fun c => decide (c.effectiveFrom = t)) :
      p.calculateMidCycleTaxChange reordered = p.calculateMidCycleTaxChange changes := by
    rw [run, run, sortBy_congr same]
  by_cases none : (sortBy (·.effectiveFrom) changes).filter p.relevant = []
  · have empty : p.calculateMidCycleTaxChange changes = [] := by
      rw [run, none, segments]
    refine ⟨iff_of_true empty fun ⟨c, known, within⟩ => ?_, ?_, ?_, ?_, absurd empty, ordered⟩
    · exact eq_nil_iff_forall_not_mem.mp none c (listed.mpr ⟨known, within⟩)
    all_goals
      rw [empty]
    · exact nofun
    · exact .nil
    · exact nofun
  · obtain ⟨⟨first, rest, same, begins⟩, chain, ends⟩ :=
      @segments_joined p _ _ Option.none proper (.inr none) fun c member => (listed.mp member).2.2
    refine ⟨iff_of_false ?_ (not_not.mpr ?_), ?_, ?_, ?_, fun _ => ?_, ordered⟩
    · rw [run, same]
      exact cons_ne_nil _ _
    · obtain ⟨c, member⟩ := exists_mem_of_ne_nil _ none
      exact ⟨c, listed.mp member⟩
    all_goals
      rw [run]
    · rw [same]
      intro segment head
      cases head
      exact begins
    · exact chain
    · exact ends
    · refine near_start proper le_rfl (fun c member => limits c (mem_sortBy.mp member)) (sortBy_sorted _ _) ?_ consistent none
      intro c head
      rw [Option.mem_def.mp head]
      rfl

theorem timeWeighted_january : Period.TimeWeighted ⟨0, 31, 10000, "US-CA"⟩ [⟨850, 900, 10⟩, ⟨900, 1000, 20⟩]
    (calculateMidCycleTaxChange ⟨0, 31, 10000, "US-CA"⟩ [⟨850, 900, 10⟩, ⟨900, 1000, 20⟩]) := by
  refine calculateMidCycleTaxChange_timeWeighted _ (by decide +kernel) ?_ (by decide +kernel)
  rw [Consistent, sortBy, mergeSort_of_pairwise (by decide +kernel)]
  decide +kernel

end Period

end SubTrackr.Tax
