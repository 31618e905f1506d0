import Mathlib.Data.Rat.Floor
import SubTrackr.Lib.Rounding

namespace SubTrackr.Proration

open List Lib.Rounding

inductive BillingCycle
  | weekly
  | monthly
  | yearly
  | custom

/-- `'immediate' | 'end_of_period' | Date`, with a date as its time in milliseconds. -/
inductive EffectiveDate
  | immediate
  | endOfPeriod
  | date (time : ℤ)

structure Subscription where
  price : ℚ
  billingCycle : BillingCycle
  nextBillingDate : ℤ

structure ProrationPreview where
  amount : ℚ
  isCredit : Bool
  (remainingDays periodDays : ℤ)
  (oldDailyRate newDailyRate : ℚ)
  description : String
  endOfPeriod : Bool

structure PriceChange where
  (oldPrice newPrice : ℚ)
  effectiveDate : EffectiveDate

def getPeriodDays : BillingCycle → ℤ
  | .weekly => 7
  | .monthly => 30
  | .yearly => 365
  | .custom => 30

variable (s : Subscription) (now : ℤ)

def getRemainingDays : ℤ := max 0 ⌈((s.nextBillingDate - now : ℤ) : ℚ) / (1000 * 60 * 60 * 24)⌉

def resolveProrationEffectiveDate : EffectiveDate → Bool
  | .endOfPeriod => true
  | .date time => ¬(now < time ∧ time ≤ s.nextBillingDate)
  | .immediate => false

def chosenDate : EffectiveDate → ℤ
  | .date time => time
  | _ => now

def daysLeft (effectiveDate : EffectiveDate) : ℤ :=
  let targetDate := min (max (chosenDate now effectiveDate) now) s.nextBillingDate
  let remainingMs := max 0 (s.nextBillingDate - targetDate)
  max 0 ⌈(remainingMs : ℚ) / (1000 * 60 * 60 * 24)⌉

variable (text : ℚ → String)

def calculateMidCycleProration (newPrice : ℚ) (effectiveDate : EffectiveDate) : ProrationPreview :=
  let periodDays := getPeriodDays s.billingCycle
  let oldDailyRate := halfUp 100 (s.price / periodDays)
  let newDailyRate := halfUp 100 (newPrice / periodDays)
  if resolveProrationEffectiveDate s now effectiveDate = true ∨ s.price = newPrice then
    ⟨0, false, 0, periodDays, oldDailyRate, newDailyRate, "No proration required", true⟩
  else
    let remainingDays := daysLeft s now effectiveDate
    let rawAmount := (newPrice - s.price) * remainingDays / periodDays
    let amount := halfUp 100 |rawAmount|
    let isCredit : Bool := rawAmount < 0
    let description :=
      if amount = 0 then "No proration required"
      else if isCredit then s!"Prorated credit of {text amount} for plan downgrade ({remainingDays} days remaining)"
      else s!"Prorated charge of {text amount} for plan upgrade ({remainingDays} days remaining)"
    ⟨amount, isCredit, remainingDays, periodDays, oldDailyRate, newDailyRate, description, false⟩

def ProrationPreview.net (p : ProrationPreview) : ℚ := if p.isCredit then -p.amount else p.amount

def calculateNetProration (priceChanges : List PriceChange) : ProrationPreview :=
  let results := priceChanges.map fun change =>
    calculateMidCycleProration { s with price := change.oldPrice } now text change.newPrice change.effectiveDate
  let netAmount := results.foldl (fun net result => net + result.net) 0
  let remainingDays := results.foldl (fun days result => max days result.remainingDays) (getRemainingDays s now)
  let isCredit : Bool := netAmount < 0
  let amount := halfUp 100 |netAmount|
  let description :=
    if amount = 0 then "No net proration for multiple plan changes"
    else if isCredit then s!"Net credit of {text amount} for multiple plan changes"
    else s!"Net charge of {text amount} for multiple plan changes"
  ⟨amount, isCredit, remainingDays, getPeriodDays s.billingCycle, 0, 0, description, false⟩

def changes : ℚ → List ℚ → List PriceChange
  | _, [] => []
  | price, next :: rest => ⟨price, next, .immediate⟩ :: changes next rest

structure Fair (newPrice : ℚ) (effectiveDate : EffectiveDate) : Prop where
  bounded : (calculateMidCycleProration s now text newPrice effectiveDate).amount ≤ |newPrice - s.price|
  reversed : (calculateMidCycleProration { s with price := newPrice } now text s.price effectiveDate).net =
    -(calculateMidCycleProration s now text newPrice effectiveDate).net
  chained : ∀ prices, |(calculateNetProration s now text (changes s.price prices)).net -
    (calculateMidCycleProration s now text (prices.getLastD s.price) .immediate).net| ≤ prices.length / 100

/-- The next bill comes so little after a whole cycle from the change on that a cent does not make up the difference. -/
def WithinCycle (newPrice : ℚ) (effectiveDate : EffectiveDate) : Prop :=
  ∃ days : ℤ, 200 * |newPrice - s.price| * days < getPeriodDays s.billingCycle ∧
    s.nextBillingDate ≤ max (chosenDate now effectiveDate) now +
      (getPeriodDays s.billingCycle + days) * (1000 * 60 * 60 * 24)

section

variable {s now text} {newPrice : ℚ} {effectiveDate : EffectiveDate}

theorem getPeriodDays_pos (cycle : BillingCycle) : 0 < getPeriodDays cycle := by cases cycle <;> decide

theorem daysLeft_nonneg : 0 ≤ daysLeft s now effectiveDate := le_max_left ..

theorem daysLeft_le_iff {days : ℤ} (nonneg : 0 ≤ days) : daysLeft s now effectiveDate ≤ days ↔
    s.nextBillingDate ≤ max (chosenDate now effectiveDate) now + days * (1000 * 60 * 60 * 24) := by
  have cast : (days : ℚ) * (1000 * 60 * 60 * 24) = (days * (1000 * 60 * 60 * 24) : ℤ) := by norm_num
  rw [daysLeft, max_le_iff, Int.ceil_le, div_le_iff₀ (by norm_num), cast, Int.cast_le]
  omega

theorem withinCycle_iff : WithinCycle s now newPrice effectiveDate ↔
    200 * |newPrice - s.price| * (daysLeft s now effectiveDate - getPeriodDays s.billingCycle) <
      getPeriodDays s.billingCycle := by
  have period : (0 : ℚ) < getPeriodDays s.billingCycle := by exact_mod_cast getPeriodDays_pos s.billingCycle
  have scale : 0 ≤ 200 * |newPrice - s.price| := by positivity
  constructor
  · rintro ⟨days, small, soon⟩
    by_cases short : getPeriodDays s.billingCycle + days < 0
    · have none : daysLeft s now effectiveDate ≤ 0 := (daysLeft_le_iff le_rfl).mpr (by omega)
      have below : (daysLeft s now effectiveDate : ℚ) - getPeriodDays s.billingCycle ≤ 0 := by
        have none : (daysLeft s now effectiveDate : ℚ) ≤ 0 := by exact_mod_cast none
        linarith
      exact (mul_nonpos_of_nonneg_of_nonpos scale below).trans_lt period
    · have left := (daysLeft_le_iff (not_lt.mp short)).mpr soon
      have below : (daysLeft s now effectiveDate : ℚ) - getPeriodDays s.billingCycle ≤ days := by
        have left : (daysLeft s now effectiveDate : ℚ) ≤ getPeriodDays s.billingCycle + days := by exact_mod_cast left
        linarith
      exact (mul_le_mul_of_nonneg_left below scale).trans_lt small
  · intro small
    refine ⟨daysLeft s now effectiveDate - getPeriodDays s.billingCycle, by push_cast; exact small, ?_⟩
    rw [add_sub_cancel]
    exact (daysLeft_le_iff daysLeft_nonneg).mp le_rfl

theorem ProrationPreview.net_signed {p : ProrationPreview} {x : ℚ} (credit : p.isCredit = decide (x < 0))
    (amount : p.amount = halfUp 100 |x|) : p.net = halfAway 100 x := by
  rw [net, halfAway, credit, amount]
  simp only [decide_eq_true_eq]

theorem net_eq : (calculateMidCycleProration s now text newPrice effectiveDate).net =
    if resolveProrationEffectiveDate s now effectiveDate = true then 0
    else halfAway 100 ((newPrice - s.price) * daysLeft s now effectiveDate / getPeriodDays s.billingCycle) := by
  unfold calculateMidCycleProration
  split
  · rename_i idle
    split
    · rfl
    · rename_i due
      rw [idle.resolve_left due, sub_self, zero_mul, zero_div, halfAway_eq (by norm_num) .zero]
      rfl
  · rename_i changed
    rw [if_neg fun late => changed (.inl late)]
    exact ProrationPreview.net_signed rfl rfl

theorem net_immediate : (calculateMidCycleProration s now text newPrice .immediate).net =
    halfAway 100 ((newPrice - s.price) * daysLeft s now .immediate / getPeriodDays s.billingCycle) := by
  rw [net_eq]
  exact if_neg Bool.false_ne_true

theorem bounded_iff (cents : OnGrid 100 (newPrice - s.price)) :
    (calculateMidCycleProration s now text newPrice effectiveDate).amount ≤ |newPrice - s.price| ↔
      resolveProrationEffectiveDate s now effectiveDate = true ∨ WithinCycle s now newPrice effectiveDate := by
  have period : (0 : ℚ) < getPeriodDays s.billingCycle := by exact_mod_cast getPeriodDays_pos s.billingCycle
  have days : (0 : ℚ) ≤ daysLeft s now effectiveDate := by exact_mod_cast daysLeft_nonneg
  have grid : OnGrid 100 |newPrice - s.price| := by
    rcases abs_choice (newPrice - s.price) with same | same <;> rw [same]
    · exact cents
    · rw [← zero_sub]
      exact OnGrid.zero.sub cents
  rw [withinCycle_iff]
  unfold calculateMidCycleProration
  split
  · rename_i idle
    refine iff_of_true (abs_nonneg _) (idle.imp_right fun same => ?_)
    rw [same, sub_self, abs_zero, mul_zero, zero_mul]
    exact period
  · rename_i changed
    obtain ⟨now_, -⟩ := not_or.mp changed
    rw [or_iff_right now_]
    rw [halfUp_le_iff (by norm_num) grid, abs_div, abs_mul, abs_of_nonneg days, abs_of_pos period, div_lt_iff₀ period]
    constructor
    · intro below
      linarith
    · intro below
      linarith

def exactAmounts (s : Subscription) (now : ℤ) : ℚ → List ℚ → List ℚ
  | _, [] => []
  | price, next :: rest =>
    (next - price) * daysLeft s now .immediate / getPeriodDays s.billingCycle :: exactAmounts s now next rest

theorem foldl_net (s : Subscription) (now : ℤ) (text : ℚ → String) (price : ℚ) (prices : List ℚ) (start : ℚ) :
    ((changes price prices).map fun change => calculateMidCycleProration { s with price := change.oldPrice } now text
      change.newPrice change.effectiveDate).foldl (fun net result => net + result.net) start =
      start + ((exactAmounts s now price prices).map (halfAway 100)).sum := by
  induction prices generalizing price start with
  | nil => simp [changes, exactAmounts]
  | cons next rest ih =>
    simp only [changes, exactAmounts, map_cons, foldl_cons, sum_cons, ih, net_immediate, add_assoc]
    rfl

theorem sum_exactAmounts (s : Subscription) (now : ℤ) (price : ℚ) (prices : List ℚ) :
    (exactAmounts s now price prices).sum =
      (prices.getLastD price - price) * daysLeft s now .immediate / getPeriodDays s.billingCycle := by
  induction prices generalizing price with
  | nil => simp [exactAmounts]
  | cons next rest ih =>
    rw [exactAmounts, sum_cons, ih, getLastD_cons]
    ring

theorem net_calculateNetProration (price : ℚ) (prices : List ℚ) :
    (calculateNetProration s now text (changes price prices)).net =
      ((exactAmounts s now price prices).map (halfAway 100)).sum := by
  have total := foldl_net s now text price prices 0
  rw [zero_add] at total
  have grid : OnGrid 100 ((exactAmounts s now price prices).map (halfAway 100)).sum := by
    refine .sum fun x mem => ?_
    obtain ⟨y, -, rfl⟩ := mem_map.mp mem
    exact halfAway_onGrid
  rw [← halfAway_eq (by norm_num) grid, ← total]
  exact ProrationPreview.net_signed rfl rfl

theorem chained (prices : List ℚ) :
    |(calculateNetProration s now text (changes s.price prices)).net -
      (calculateMidCycleProration s now text (prices.getLastD s.price) .immediate).net| ≤ prices.length / 100 := by
  have length (price : ℚ) : (exactAmounts s now price prices).length = prices.length := by
    induction prices generalizing price with
    | nil => rfl
    | cons next rest ih => exact congrArg (· + 1) (ih next)
  have pos : (0 : ℚ) < 100 := by norm_num
  rw [net_calculateNetProration, net_immediate, ← sum_exactAmounts]
  cases prices with
  | nil => simp [exactAmounts, halfAway_eq pos .zero]
  | cons next rest =>
    have each := sum_halfAway_error pos (exactAmounts s now s.price (next :: rest))
    have whole := halfAway_error (x := (exactAmounts s now s.price (next :: rest)).sum) pos
    rw [abs_sub_comm] at whole
    have apart := abs_sub_le ((exactAmounts s now s.price (next :: rest)).map (halfAway 100)).sum
      (exactAmounts s now s.price (next :: rest)).sum (halfAway 100 (exactAmounts s now s.price (next :: rest)).sum)
    rw [length] at each
    rw [length_cons, Nat.cast_add_one] at each ⊢
    linarith [rest.length.cast_nonneg (α := ℚ)]

theorem reversed : (calculateMidCycleProration { s with price := newPrice } now text s.price effectiveDate).net =
    -(calculateMidCycleProration s now text newPrice effectiveDate).net := by
  rw [net_eq, net_eq]
  change (if resolveProrationEffectiveDate s now effectiveDate = true then 0 else _) = _
  by_cases late : resolveProrationEffectiveDate s now effectiveDate = true
  · rw [if_pos late, if_pos late, neg_zero]
  · rw [if_neg late, if_neg late, ← halfAway_neg (by norm_num), ← neg_div, ← neg_mul, neg_sub]
    rfl

theorem midCycle_fair_iff (cents : OnGrid 100 s.price) (newCents : OnGrid 100 newPrice) : Fair s now text newPrice effectiveDate ↔
    resolveProrationEffectiveDate s now effectiveDate = true ∨ WithinCycle s now newPrice effectiveDate :=
  ⟨fun fair => (bounded_iff (newCents.sub cents)).mp fair.bounded,
    fun cond => ⟨(bounded_iff (newCents.sub cents)).mpr cond, reversed, chained⟩⟩

end

/-- At time 0, the first day of a January, the next bill comes with February. -/
def january : Subscription := ⟨0, .monthly, 31 * (1000 * 60 * 60 * 24)⟩

theorem midCycle_fair_january : Fair january 0 (fun _ => "") (1 / 10) .immediate ↔
    resolveProrationEffectiveDate january 0 .immediate = true ∨ WithinCycle january 0 (1 / 10) .immediate :=
  midCycle_fair_iff ⟨0, by norm_num [january]⟩ ⟨10, by norm_num⟩

theorem midCycle_not_fair : ¬ Fair january 0 (fun _ => "") 30 .immediate := by
  intro fair
  have bounded := fair.bounded
  have charged : (calculateMidCycleProration january 0 (fun _ => "") 30 .immediate).amount = 31 := by decide +kernel
  rw [charged] at bounded
  norm_num [january] at bounded

end SubTrackr.Proration
