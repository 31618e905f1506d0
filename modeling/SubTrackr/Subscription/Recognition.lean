import SubTrackr.Subscription.EntryPoints
import SubTrackr.Lib.Proration

namespace SubTrackr.Subscriptions

open List Lib Soroban

structure Recognition where
  subscriptionId : Nat
  merchant : Address
  (recognisedRevenue deferredRevenue : Int)
  asOf : Nat
  deriving DecidableEq

/-- One round of the loop of `split_recognised_deferred`, on the recognised and the deferred amount so far. The duration is
    not zero in the branch that divides by it. -/
def splitEntry (now : Nat) (sums : Int × Int) (entry : RevenueScheduleEntry) : Result (Int × Int) :=
  if entry.periodEnd ≤ now then do
    let recognised ← i128 (sums.1 + entry.recognisedAmount)
    return (recognised, sums.2)
  else if entry.periodStart ≤ now then do
    let elapsed := now - entry.periodStart
    let duration := entry.periodEnd - entry.periodStart
    let product ← i128 (entry.recognisedAmount * (elapsed : Int))
    let part := product.tdiv duration
    let recognised ← i128 (sums.1 + part)
    let rest ← i128 (entry.recognisedAmount - part)
    let deferred ← i128 (sums.2 + rest)
    return (recognised, deferred)
  else do
    let deferred ← i128 (sums.2 + entry.recognisedAmount)
    return (sums.1, deferred)

def splitRecognisedDeferred (schedule : RevenueSchedule) (now : Nat) : Result (Int × Int) :=
  schedule.entries.foldlM (splitEntry now) (0, 0)

def recognitionOf (s : State) (subscriptionId : Nat) (merchant : Address) (now : Nat) : Result Recognition :=
  match s.revenueSchedule subscriptionId with
  | none => .ok ⟨subscriptionId, merchant, 0, 0, now⟩
  | some schedule => do
    let (recognised, deferred) ← splitRecognisedDeferred schedule now
    return ⟨subscriptionId, merchant, recognised, deferred, now⟩

def recognizeRevenue (env : Env) (s : State) (subscriptionId : Nat) : Result Recognition := do
  env.requireAuth env.proxy
  let sub ← expect (s.subscription subscriptionId) "Subscription not found"
  let plan ← expect (s.plan sub.planId) "Plan not found"
  recognitionOf s subscriptionId plan.merchant env.timestamp

def getDeferredRevenue (env : Env) (s : State) (merchant : Address) : Result Int := do
  env.requireAuth env.proxy
  return (s.revenueDeferredBalance merchant).getD 0

def RevenueScheduleEntry.slice (entry : RevenueScheduleEntry) : Slice :=
  ⟨entry.periodStart, entry.periodEnd, entry.recognisedAmount⟩

/-- The amounts are not negative, fit into `i128` together, and do so too when they are prorated. -/
structure Proratable (entries : List RevenueScheduleEntry) : Prop where
  proper : ∀ e ∈ entries, e.periodStart < e.periodEnd
  nonneg : ∀ e ∈ entries, 0 ≤ e.recognisedAmount
  small : Slice.total (entries.map (·.slice)) ≤ i128Max
  products : ∀ e ∈ entries, e.recognisedAmount * ((e.periodEnd - e.periodStart - 1 : Nat) : Int) ≤ i128Max

variable {entries : List RevenueScheduleEntry} {now : Nat} {schedule : RevenueSchedule} {entry : RevenueScheduleEntry}

theorem i128_ok {n : Int} (low : 0 ≤ n) (high : n ≤ i128Max) : i128 n = .ok n := by
  rw [i128_eq_ok]
  refine ⟨⟨?_, ?_⟩, rfl⟩
  · omega
  · rw [i128Max] at high
    omega

theorem splitEntry_ok {sums : Int × Int} (proper : entry.periodStart < entry.periodEnd) (nonneg : 0 ≤ entry.recognisedAmount)
    (product : entry.recognisedAmount * ((entry.periodEnd - entry.periodStart - 1 : Nat) : Int) ≤ i128Max)
    (pos : 0 ≤ sums.1 ∧ 0 ≤ sums.2) (small : sums.1 + sums.2 + entry.recognisedAmount ≤ i128Max) :
    splitEntry now sums entry =
      .ok (sums.1 + entry.slice.part now, sums.2 + (entry.recognisedAmount - entry.slice.part now)) := by
  have lower : 0 ≤ entry.slice.part now := Slice.part_nonneg nonneg
  have upper : entry.slice.part now ≤ entry.recognisedAmount := Slice.part_le nonneg
  obtain ⟨first, second⟩ := pos
  unfold splitEntry
  split
  · rename_i past
    have part : entry.slice.part now = entry.recognisedAmount := Slice.part_of_finish_le past
    rw [part, Int.sub_self, Int.add_zero, i128_ok (by omega) (by omega)]
    rfl
  · rename_i unfinished
    split
    · rename_i begun
      have elapsed : ((now - entry.periodStart : Nat) : Int) ≤ (entry.periodEnd - entry.periodStart - 1 : Nat) := by
        exact_mod_cast (show _ ≤ _ by omega)
      have bound := (mul_le_mul_of_nonneg_left elapsed nonneg).trans product
      have pos : 0 ≤ entry.recognisedAmount * ((now - entry.periodStart : Nat) : Int) :=
        mul_nonneg nonneg (Int.natCast_nonneg _)
      have part : (entry.recognisedAmount * ((now - entry.periodStart : Nat) : Int)).tdiv
          ((entry.periodEnd - entry.periodStart : Nat) : Int) = entry.slice.part now := by
        rw [Int.tdiv_eq_ediv_of_nonneg pos]
        exact (Slice.part_of_between (s := entry.slice) begun unfinished).symm
      dsimp only
      rw [i128_ok pos bound]
      dsimp only [ok_bind]
      rw [part, i128_ok (by omega) (by omega)]
      dsimp only [ok_bind]
      rw [i128_ok (by omega) (by omega)]
      dsimp only [ok_bind]
      rw [i128_ok (by omega) (by omega)]
      rfl
    · rename_i future
      have part : entry.slice.part now = 0 := Slice.part_of_le_start proper (by
        show now ≤ entry.periodStart
        omega)
      rw [part, Int.sub_zero, Int.add_zero, i128_ok (by omega) (by omega)]
      rfl

def RevenueSchedule.slices (schedule : RevenueSchedule) : List Slice := schedule.entries.map (·.slice)

theorem foldlM_splitEntry (fits : Proratable entries) {sums : Int × Int} (pos : 0 ≤ sums.1 ∧ 0 ≤ sums.2)
    (small : sums.1 + sums.2 + Slice.total (entries.map (·.slice)) ≤ i128Max) :
    entries.foldlM (splitEntry now) sums =
      .ok (sums.1 + Slice.accrued (entries.map (·.slice)) now,
        sums.2 + (Slice.total (entries.map (·.slice)) - Slice.accrued (entries.map (·.slice)) now)) := by
  induction entries generalizing sums with
  | nil =>
    show Except.ok sums = _
    simp [Slice.accrued, Slice.total]
  | cons entry entries ih =>
    have nonneg := fits.nonneg entry mem_cons_self
    have others : ∀ s ∈ entries.map (·.slice), 0 ≤ s.amount := by
      intro s member
      obtain ⟨e, mem, rfl⟩ := mem_map.mp member
      exact fits.nonneg e (mem_cons_of_mem _ mem)
    have rest := Slice.total_nonneg others
    have lower : 0 ≤ entry.slice.part now := Slice.part_nonneg nonneg
    have upper : entry.slice.part now ≤ entry.recognisedAmount := Slice.part_le nonneg
    obtain ⟨first, second⟩ := pos
    have sum : Slice.total ((entry :: entries).map (·.slice)) = entry.recognisedAmount + Slice.total (entries.map (·.slice)) := rfl
    rw [sum] at small ⊢
    have tail : Proratable entries :=
      { proper := fun e mem => fits.proper e (mem_cons_of_mem _ mem)
        nonneg := fun e mem => fits.nonneg e (mem_cons_of_mem _ mem)
        small := by omega
        products := fun e mem => fits.products e (mem_cons_of_mem _ mem) }
    rw [foldlM_cons, splitEntry_ok (fits.proper entry mem_cons_self) nonneg
      (fits.products entry mem_cons_self) ⟨first, second⟩ (by omega), ok_bind]
    rw [ih tail ⟨by dsimp only; omega, by dsimp only; omega⟩ (by dsimp only; omega), map_cons, Slice.accrued_cons]
    congr 2
    · omega
    · omega

theorem splitRecognisedDeferred_ok (fits : Proratable schedule.entries) : splitRecognisedDeferred schedule now =
      .ok (Slice.accrued schedule.slices now, Slice.total schedule.slices - Slice.accrued schedule.slices now) := by
  have pos : 0 ≤ ((0, 0) : Int × Int).1 ∧ 0 ≤ ((0, 0) : Int × Int).2 := ⟨le_refl 0, le_refl 0⟩
  have small : (0 : Int) + 0 + Slice.total (schedule.entries.map (·.slice)) ≤ i128Max := by
    have bound := fits.small
    omega
  unfold splitRecognisedDeferred
  rw [foldlM_splitEntry fits pos small, Int.zero_add, Int.zero_add]
  rfl

theorem product_of_splitEntry {sums sums' : Int × Int} (begun : entry.periodStart ≤ now) (last : entry.periodEnd = now + 1)
    (split : splitEntry now sums entry = .ok sums') :
    entry.recognisedAmount * ((entry.periodEnd - entry.periodStart - 1 : Nat) : Int) ≤ i128Max := by
  unfold splitEntry at split
  rw [if_neg (by omega), if_pos begun] at split
  dsimp only at split
  obtain ⟨product, computed, -⟩ := (bind_eq_ok ..).mp split
  obtain ⟨⟨-, high⟩, -⟩ := (i128_eq_ok _ _).mp computed
  have elapsed : entry.periodEnd - entry.periodStart - 1 = now - entry.periodStart := by omega
  rw [elapsed, i128Max]
  omega

structure ExactSchedule (schedule : RevenueSchedule) (chargeTime interval : Nat) (amount : Int) (finish : Nat) : Prop where
  contiguous : Slice.Contiguous chargeTime schedule.slices finish
  covers : chargeTime + interval ≤ finish
  nonneg : ∀ e ∈ schedule.entries, 0 ≤ e.recognisedAmount
  sum : (schedule.entries.map (·.recognisedAmount)).sum = amount
  splits : ∀ now, ∃ recognised deferred,
    splitRecognisedDeferred schedule now = .ok (recognised, deferred) ∧ recognised + deferred = amount
  monotone : ∀ now later r d r' d', now ≤ later → splitRecognisedDeferred schedule now = .ok (r, d) →
    splitRecognisedDeferred schedule later = .ok (r', d') → r ≤ r'
  initially : splitRecognisedDeferred schedule chargeTime = .ok (0, amount)
  eventually : ∀ now, finish ≤ now → splitRecognisedDeferred schedule now = .ok (amount, 0)

theorem exact_of_proratable {chargeTime interval finish : Nat} (fits : Proratable schedule.entries)
    (contiguous : Slice.Contiguous chargeTime schedule.slices finish) (covers : chargeTime + interval ≤ finish) :
    ExactSchedule schedule chargeTime interval (Slice.total schedule.slices) finish where
  contiguous := contiguous
  covers := covers
  nonneg := fits.nonneg
  sum := by
    rw [Slice.total, RevenueSchedule.slices, map_map]
    rfl
  splits now := ⟨_, _, splitRecognisedDeferred_ok fits, by omega⟩
  monotone := by
    intro now later r d r' d' ordered split split'
    rw [splitRecognisedDeferred_ok fits] at split split'
    cases split
    cases split'
    refine Slice.accrued_mono ?_ ordered
    intro s member
    obtain ⟨e, mem, rfl⟩ := mem_map.mp member
    exact fits.nonneg e mem
  initially := by rw [splitRecognisedDeferred_ok fits, contiguous.accrued_start, Int.sub_zero]
  eventually now late := by rw [splitRecognisedDeferred_ok fits, contiguous.accrued_finish late, Int.sub_self]

variable {chargeTime interval period count : Nat} {amount share last : Int}

section

variable (slices : schedule.slices = Slice.even chargeTime period share last count) (pos : 0 < period) (nonneg : 0 ≤ share) (larger : share ≤ last)

include slices pos nonneg larger

theorem proratable_of_even (small : Slice.total schedule.slices ≤ i128Max)
    (bound : last * ((period - 1 : Nat) : Int) ≤ i128Max) : Proratable schedule.entries := by
  have shape : ∀ e ∈ schedule.entries, e.periodEnd = e.periodStart + period ∧
      (e.recognisedAmount = share ∨ e.recognisedAmount = last) := by
    intro e mem
    have member : e.slice ∈ Slice.even chargeTime period share last count := slices ▸ mem_map_of_mem mem
    obtain ⟨i, -, same | same⟩ := Slice.mem_even member
    · have start : e.periodStart = _ := congrArg Slice.start same
      exact ⟨start ▸ congrArg Slice.finish same, .inl (congrArg Slice.amount same)⟩
    · have start : e.periodStart = _ := congrArg Slice.start same
      exact ⟨start ▸ congrArg Slice.finish same, .inr (congrArg Slice.amount same)⟩
  refine ⟨?_, ?_, small, ?_⟩
  · intro e mem
    have ends := (shape e mem).1
    omega
  · intro e mem
    have amounts := (shape e mem).2
    omega
  · intro e mem
    obtain ⟨ends, amounts⟩ := shape e mem
    have length : e.periodEnd - e.periodStart - 1 = period - 1 := by omega
    have most : e.recognisedAmount ≤ last := by omega
    rw [length]
    exact (mul_le_mul_of_nonneg_right most (Int.natCast_nonneg _)).trans bound

theorem exact_iff_of_even (sum : count * share + last = amount) (high : amount ≤ i128Max)
    (covers : interval ≤ (count + 1) * period) :
    (∃ finish, ExactSchedule schedule chargeTime interval amount finish) ↔ last * ((period - 1 : Nat) : Int) ≤ i128Max := by
  have all : Slice.total schedule.slices = amount := by rw [slices, Slice.total_even, sum]
  constructor
  · rintro ⟨finish, exact⟩
    obtain ⟨recognised, deferred, split, -⟩ := exact.splits (chargeTime + count * period + (period - 1))
    obtain ⟨before, final, entries, -, ends⟩ := map_eq_append_iff.mp slices
    obtain ⟨entry, rfl, shape⟩ := map_eq_singleton_iff.mp ends
    have start : entry.periodStart = chargeTime + count * period := congrArg Slice.start shape
    have finish' : entry.periodEnd = chargeTime + count * period + period := congrArg Slice.finish shape
    have all' : entry.recognisedAmount = last := congrArg Slice.amount shape
    rw [splitRecognisedDeferred, entries, foldlM_append] at split
    obtain ⟨sums, -, round⟩ := (bind_eq_ok ..).mp split
    rw [foldlM_cons] at round
    obtain ⟨sums', round, -⟩ := (bind_eq_ok ..).mp round
    have product := product_of_splitEntry (by omega) (by omega) round
    have length : entry.periodEnd - entry.periodStart - 1 = period - 1 := by omega
    rwa [all', length] at product
  · intro bound
    refine ⟨chargeTime + (count + 1) * period, ?_⟩
    have contiguous : Slice.Contiguous chargeTime schedule.slices (chargeTime + (count + 1) * period) := by
      rw [slices]
      exact Slice.contiguous_even pos
    have fits := proratable_of_even slices pos nonneg larger (all ▸ high) bound
    exact all ▸ exact_of_proratable fits contiguous (by omega)

end

def evenEntry (chargeTime period count : Nat) (share last : Int) (i : Nat) : RevenueScheduleEntry :=
  ⟨chargeTime + i * period, chargeTime + i * period + period, if i = count - 1 then share + last else share, false⟩

theorem straightLineEntry_ok {i : Nat} (inside : i < count) (fits : chargeTime + count * period < 2 ^ 64)
    (low : 0 ≤ share) (rest : 0 ≤ last) (small : share + last ≤ i128Max) :
    straightLineEntry chargeTime period count share last i = .ok (evenEntry chargeTime period count share last i) := by
  have later : (i + 1) * period ≤ count * period := Nat.mul_le_mul_right _ inside
  rw [Nat.succ_mul] at later
  have offset : u64 (i * period) = .ok (i * period) := (u64_eq_ok _ _).mpr ⟨by omega, rfl⟩
  have start : u64 (chargeTime + i * period) = .ok (chargeTime + i * period) := (u64_eq_ok _ _).mpr ⟨by omega, rfl⟩
  have finish : u64 (chargeTime + i * period + period) = .ok (chargeTime + i * period + period) :=
    (u64_eq_ok _ _).mpr ⟨by omega, rfl⟩
  have amount : straightLineEntry.lastOrSlice count share last i =
      .ok (if i = count - 1 then share + last else share) := by
    unfold straightLineEntry.lastOrSlice
    split
    · exact i128_ok (by omega) small
    · rfl
  rw [straightLineEntry, offset, ok_bind, start, ok_bind, finish, ok_bind, amount, ok_bind]
  rfl

theorem buildStraightLineSchedule_ok (subId : Nat) (pos : 0 < period) (nonneg : 0 ≤ amount)
    (high : amount ≤ i128Max) (fits : chargeTime + (count + 1) * period < 2 ^ 64) :
    ∃ schedule, buildStraightLineSchedule subId amount chargeTime period (count + 1) = .ok schedule ∧
      schedule.slices = Slice.even chargeTime period (amount / (count + 1 : Nat))
        (amount / (count + 1 : Nat) + amount % (count + 1 : Nat)) count := by
  have share : 0 ≤ amount / (count + 1 : Nat) := Int.ediv_nonneg nonneg (Int.natCast_nonneg _)
  have rest : 0 ≤ amount % (count + 1 : Nat) := Int.emod_nonneg _ (by omega)
  have parts : amount / (count + 1 : Nat) * (count + 1 : Nat) + amount % (count + 1 : Nat) = amount :=
    Int.ediv_mul_add_emod amount _
  have most : amount / (count + 1 : Nat) ≤ amount / (count + 1 : Nat) * (count + 1 : Nat) :=
    le_mul_of_one_le_right share (by omega)
  have remainder : amount - amount / (count + 1 : Nat) * (count + 1 : Nat) = amount % (count + 1 : Nat) := by omega
  have built := mapM_ok fun i (inside : i ∈ List.range (count + 1)) =>
    straightLineEntry_ok (mem_range.mp inside) fits share rest (by omega)
  let entries := (List.range (count + 1)).map
    (evenEntry chargeTime period (count + 1) (amount / (count + 1 : Nat)) (amount % (count + 1 : Nat)))
  refine ⟨⟨subId, amount, entries⟩, ?_, ?_⟩
  · rw [buildStraightLineSchedule, ensure, require, if_pos (Nat.succ_pos _), ok_bind]
    rw [ensure, require, if_pos pos, ok_bind, ensure, require, if_pos nonneg, ok_bind]
    dsimp only
    rw [Int.tdiv_eq_ediv_of_nonneg nonneg, remainder]
    rw [built, ok_bind]
    rfl
  · rw [RevenueSchedule.slices, map_map, range_succ, map_append, Slice.even]
    congr 1
    · apply map_congr_left
      intro i inside
      have early : ¬ i = count + 1 - 1 := by
        have bound := mem_range.mp inside
        omega
      simp only [Function.comp, RevenueScheduleEntry.slice, evenEntry, if_neg early, Slice.nth]
    · simp [RevenueScheduleEntry.slice, evenEntry, Slice.nth]

theorem buildStraightLineSchedule_even {subscriptionId periods : Nat}
    (built : buildStraightLineSchedule subscriptionId amount chargeTime period periods = .ok schedule)
    (high : amount ≤ i128Max) : ∃ count, periods = count + 1 ∧ 0 < period ∧ 0 ≤ amount ∧
      schedule.slices = Slice.even chargeTime period (amount / periods) (amount / periods + amount % periods) count := by
  obtain ⟨_, nonempty, checked⟩ := (bind_eq_ok ..).mp built
  obtain ⟨_, positive, checked⟩ := (bind_eq_ok ..).mp checked
  obtain ⟨_, nonneg, entered⟩ := (bind_eq_ok ..).mp checked
  replace nonempty := (ensure_eq_ok ..).mp nonempty
  replace positive := (ensure_eq_ok ..).mp positive
  replace nonneg := (ensure_eq_ok ..).mp nonneg
  obtain ⟨count, rfl⟩ : ∃ count, periods = count + 1 := ⟨periods - 1, by omega⟩
  obtain ⟨entries, entered, -⟩ := (bind_eq_ok ..).mp entered
  obtain ⟨entry, final⟩ := ok_of_mapM entered (mem_range.mpr (Nat.lt_succ_self count))
  simp only [straightLineEntry, bind_eq_ok, u64_eq_ok] at final
  obtain ⟨_, ⟨-, rfl⟩, _, ⟨-, rfl⟩, _, ⟨fits, rfl⟩, -⟩ := final
  rw [Nat.add_assoc, ← Nat.succ_mul] at fits
  obtain ⟨schedule', built', slices⟩ := buildStraightLineSchedule_ok _ positive nonneg high fits
  cases built.symm.trans built'
  exact ⟨count, rfl, positive, nonneg, slices⟩

theorem total_even_share (amount : Int) (count : Nat) :
    count * (amount / (count + 1 : Nat)) + (amount / (count + 1 : Nat) + amount % (count + 1 : Nat)) = amount := by
  have parts := Int.mul_ediv_add_emod amount (count + 1 : Nat)
  push_cast at parts ⊢
  linarith

def RecognitionMethod.span (method : RecognitionMethod) (period interval : Nat) : Nat :=
  match method with
  | .straightLine => numPeriods interval period * period
  | .usageBased => interval

/-- The periods are not empty, and the last amount stays within `i128` when it is prorated. -/
def RecognitionMethod.Prorates (method : RecognitionMethod) (period interval : Nat) (amount : Int) : Prop :=
  match method with
  | .straightLine => 0 < period ∧ (amount / (numPeriods interval period : Int) + amount % (numPeriods interval period : Int)) *
      ((period - 1 : Nat) : Int) ≤ i128Max
  | .usageBased => amount * ((interval - 1 : Nat) : Int) ≤ i128Max

instance (method : RecognitionMethod) (period interval : Nat) (amount : Int) :
    Decidable (method.Prorates period interval amount) :=
  match method with
  | .straightLine => inferInstanceAs (Decidable (_ ∧ _))
  | .usageBased => inferInstanceAs (Decidable (_ ≤ _))

theorem Interval.seconds_pos (interval : Interval) : 0 < interval.seconds ∧ interval.seconds < 2 ^ 32 := by
  cases interval <;> decide

theorem numPeriods_spec (interval : Interval) (pos : 0 < period) :
    ∃ count, numPeriods interval.seconds period = count + 1 ∧ interval.seconds ≤ (count + 1) * period := by
  obtain ⟨nonzero, small⟩ := Interval.seconds_pos interval
  have rounded : (interval.seconds + period - 1) / period ≤ interval.seconds := by
    apply Nat.div_le_of_le_mul
    have grows : interval.seconds - 1 ≤ period * (interval.seconds - 1) := Nat.le_mul_of_pos_left _ pos
    have parts : period * interval.seconds = period * (interval.seconds - 1) + period := by
      rw [← Nat.mul_succ]
      congr 1
      omega
    omega
  have covers : interval.seconds ≤ (interval.seconds + period - 1) / period * period := by
    have parts := Nat.div_add_mod' (interval.seconds + period - 1) period
    have rest := Nat.mod_lt (interval.seconds + period - 1) pos
    omega
  have count : numPeriods interval.seconds period = (interval.seconds + period - 1) / period := by
    rw [numPeriods, if_pos pos, Nat.mod_eq_of_lt (by omega)]
  have nonempty : 0 < (interval.seconds + period - 1) / period := Nat.div_pos (by omega) pos
  refine ⟨(interval.seconds + period - 1) / period - 1, by omega, ?_⟩
  rwa [Nat.sub_add_cancel nonempty]

theorem usageBased_slices (subId chargeTime finish : Nat) (amount : Int) :
    RevenueSchedule.slices ⟨subId, amount, [⟨chargeTime, chargeTime + finish, amount, false⟩]⟩ =
      Slice.even chargeTime finish amount amount 0 := by
  simp [RevenueSchedule.slices, RevenueScheduleEntry.slice, Slice.even, Slice.nth]

theorem buildSchedule_exact_iff (planId subId : Nat) {method : RecognitionMethod} {interval : Interval}
    (nonneg : 0 ≤ amount) (high : amount ≤ i128Max) (fits : chargeTime + method.span period interval.seconds < 2 ^ 64) :
    (∃ schedule finish, buildSchedule (some ⟨planId, method, period⟩) subId amount chargeTime interval.seconds =
        .ok schedule ∧ ExactSchedule schedule chargeTime interval.seconds amount finish) ↔
      method.Prorates period interval.seconds amount := by
  cases method with
  | straightLine =>
    show (∃ schedule finish, buildStraightLineSchedule subId amount chargeTime period
      (numPeriods interval.seconds period) = .ok schedule ∧ _) ↔ 0 < period ∧ _
    by_cases pos : 0 < period
    · obtain ⟨count, periods, covers⟩ := numPeriods_spec interval pos
      have fits : chargeTime + numPeriods interval.seconds period * period < 2 ^ 64 := fits
      rw [periods] at fits ⊢
      obtain ⟨schedule, built, slices⟩ := buildStraightLineSchedule_ok subId pos nonneg high fits
      have share : 0 ≤ amount / (count + 1 : Nat) := Int.ediv_nonneg nonneg (Int.natCast_nonneg _)
      have rest : 0 ≤ amount % (count + 1 : Nat) := Int.emod_nonneg _ (by omega)
      have decides := exact_iff_of_even slices pos share (by omega) (total_even_share amount count) high covers
      constructor
      · rintro ⟨_, finish, built', exact⟩
        rw [built] at built'
        cases built'
        exact ⟨pos, decides.mp ⟨finish, exact⟩⟩
      · rintro ⟨-, bound⟩
        obtain ⟨finish, exact⟩ := decides.mpr bound
        exact ⟨schedule, finish, built, exact⟩
    · constructor
      · rintro ⟨schedule, finish, built, -⟩
        obtain ⟨_, -, built⟩ := (bind_eq_ok ..).mp built
        obtain ⟨_, checked, -⟩ := (bind_eq_ok ..).mp built
        exact absurd ((ensure_eq_ok ..).mp checked) pos
      · rintro ⟨pos', -⟩
        exact absurd pos' pos
  | usageBased =>
    have decides := exact_iff_of_even (usageBased_slices subId chargeTime interval.seconds amount)
      (Interval.seconds_pos interval).1 nonneg (le_refl amount) (by rw [Nat.cast_zero, zero_mul, zero_add]) high
      (show interval.seconds ≤ (0 + 1) * interval.seconds by omega)
    have finish : u64 (chargeTime + interval.seconds) = .ok (chargeTime + interval.seconds) := (u64_eq_ok _ _).mpr ⟨fits, rfl⟩
    have built : buildUsageBasedSchedule subId amount chargeTime interval.seconds =
        .ok ⟨subId, amount, [⟨chargeTime, chargeTime + interval.seconds, amount, false⟩]⟩ := by
      rw [buildUsageBasedSchedule, finish]
      rfl
    constructor
    · rintro ⟨_, last, built', exact⟩
      have same := built.symm.trans built'
      cases same
      exact decides.mp ⟨last, exact⟩
    · intro bound
      obtain ⟨last, exact⟩ := decides.mpr bound
      exact ⟨_, last, built, exact⟩

def ruleOr (rule : Option RevenueRecognitionRule) (interval : Nat) : RecognitionMethod × Nat :=
  match rule with
  | some rule => (rule.method, rule.recognitionPeriod)
  | none => (.straightLine, interval)

def Prorates (rule : Option RevenueRecognitionRule) (interval : Nat) (amount : Int) : Prop :=
  (ruleOr rule interval).1.Prorates (ruleOr rule interval).2 interval amount

instance (rule : Option RevenueRecognitionRule) (interval : Nat) (amount : Int) : Decidable (Prorates rule interval amount) :=
  inferInstanceAs (Decidable (RecognitionMethod.Prorates ..))

theorem proratable_of_straightLine {subId periods : Nat}
    (built : buildStraightLineSchedule subId amount chargeTime period periods = .ok schedule) (high : amount ≤ i128Max)
    (bound : (amount / (periods : Int) + amount % (periods : Int)) * ((period - 1 : Nat) : Int) ≤ i128Max) :
    Proratable schedule.entries ∧ Slice.total schedule.slices = amount := by
  obtain ⟨count, rfl, pos, nonneg, slices⟩ := buildStraightLineSchedule_even built high
  have share : 0 ≤ amount / (count + 1 : Nat) := Int.ediv_nonneg nonneg (Int.natCast_nonneg _)
  have rest : 0 ≤ amount % (count + 1 : Nat) := Int.emod_nonneg _ (by omega)
  have all : Slice.total schedule.slices = amount := by rw [slices, Slice.total_even, total_even_share]
  exact ⟨proratable_of_even slices pos share (by omega) (all ▸ high) bound, all⟩

theorem proratable_of_buildSchedule {rule : Option RevenueRecognitionRule} {subId : Nat} {interval : Interval}
    (built : buildSchedule rule subId amount chargeTime interval.seconds = .ok schedule) (nonneg : 0 ≤ amount)
    (high : amount ≤ i128Max) (prorates : Prorates rule interval.seconds amount) :
    Proratable schedule.entries ∧ Slice.total schedule.slices = amount := by
  cases rule with
  | none =>
    have one : numPeriods interval.seconds interval.seconds = 1 := by cases interval <;> decide
    have bound := prorates.2
    simp only [ruleOr, one] at bound
    exact proratable_of_straightLine built high bound
  | some rule =>
    obtain ⟨planId, method, period⟩ := rule
    cases method with
    | straightLine => exact proratable_of_straightLine built high prorates.2
    | usageBased =>
      simp only [buildSchedule, buildUsageBasedSchedule, bind_eq_ok, pure_eq_ok, u64_eq_ok] at built
      obtain ⟨finish, ⟨-, rfl⟩, rfl⟩ := built
      have slices := usageBased_slices subId chargeTime interval.seconds amount
      have all := (congrArg Slice.total slices).trans Slice.total_even
      rw [Nat.cast_zero, zero_mul, zero_add] at all
      exact ⟨proratable_of_even slices (Interval.seconds_pos interval).1 nonneg (le_refl amount) (all.trans_le high) prorates,
        all⟩

theorem setRevenueRule_rule {env : Env} {s s' : State} {merchant : Address} {planId : Nat} {method : RecognitionMethod}
    (accepted : setRevenueRule env s merchant planId method period = .ok s') :
    s'.revenueRecognitionRule planId = some ⟨planId, method, period⟩ := by
  simp only [setRevenueRule, bind_eq_ok, pure_eq_ok] at accepted
  obtain ⟨-, -, -, -, plan, -, -, -, rfl⟩ := accepted
  exact put_self ..

/-- With a rule that the contract accepted, and that is still there when the plan is charged. -/
theorem generateRevenueSchedule_exact_iff {env : Env} {s s₁ s₂ : State} {merchant : Address} {planId subscriptionId : Nat}
    {method : RecognitionMethod} {plan : Plan} (accepted : setRevenueRule env s merchant planId method period = .ok s₁)
    (kept : s₂.revenueRecognitionRule planId = s₁.revenueRecognitionRule planId) (_known : s₂.plan planId = some plan)
    (nonneg : 0 ≤ amount) (high : amount ≤ i128Max)
    (fits : chargeTime + method.span period plan.interval.seconds < 2 ^ 64) :
    (∃ s₃ schedule finish,
        generateRevenueSchedule s₂ subscriptionId planId amount chargeTime plan.interval.seconds = .ok s₃ ∧
        s₃.revenueSchedule subscriptionId = some schedule ∧
        ExactSchedule schedule chargeTime plan.interval.seconds amount finish) ↔
      method.Prorates period plan.interval.seconds amount := by
  rw [← buildSchedule_exact_iff planId subscriptionId nonneg high fits]
  have rule : s₂.revenueRecognitionRule planId = some ⟨planId, method, period⟩ := kept.trans (setRevenueRule_rule accepted)
  constructor
  · rintro ⟨s₃, schedule, finish, generated, stored, exact⟩
    rw [generateRevenueSchedule, rule] at generated
    obtain ⟨schedule', built, same⟩ := (bind_eq_ok ..).mp generated
    cases same
    have found : schedule' = schedule := Option.some.inj ((put_self ..).symm.trans stored)
    exact ⟨schedule, finish, found ▸ built, exact⟩
  · rintro ⟨schedule, finish, built, exact⟩
    refine ⟨{ s₂ with revenueSchedule := put s₂.revenueSchedule subscriptionId schedule }, schedule, finish, ?_,
      put_self .., exact⟩
    rw [generateRevenueSchedule, rule, built]
    rfl

def examplePlan : Plan := ⟨1, ⟨2⟩, "Pro", 1000, ⟨3⟩, .monthly, true, 0, 0⟩

def exampleState : State := { State.initial ⟨9⟩ with plan := put State.empty.plan 1 examplePlan, planCount := some 1 }

theorem generateRevenueSchedule_exact_weekly :
    ∃ s₃ schedule finish, generateRevenueSchedule (setRecognitionRule exampleState ⟨1, .straightLine, 604800⟩) 7 1 1000 5000
        examplePlan.interval.seconds = .ok s₃ ∧
      s₃.revenueSchedule 7 = some schedule ∧ ExactSchedule schedule 5000 examplePlan.interval.seconds 1000 finish :=
  have accepted : setRevenueRule (.willing 0) exampleState ⟨2⟩ 1 .straightLine 604800 =
    .ok (setRecognitionRule exampleState ⟨1, .straightLine, 604800⟩) := rfl
  (generateRevenueSchedule_exact_iff accepted rfl rfl (by decide) (by decide) (by decide)).mpr (by decide)

theorem emptyPeriod_reverts :
    let calls : List (Nat × Call) := [(0, .createPlan ⟨2⟩ "Pro" 1000 ⟨3⟩ .monthly), (0, .subscribe ⟨4⟩ 1),
      (0, .setRevenueRule ⟨2⟩ 1 .straightLine 0)]
    (trial calls).history.length = 3 ∧
      exec ⟨.willing 2592000, .chargeSubscription 1⟩ (trial calls).state = .error (.message "period_secs must be > 0") ∧
      ¬ ∃ s₃ schedule finish,
        generateRevenueSchedule (trial calls).state 1 1 1000 2592000 Interval.monthly.seconds = .ok s₃ ∧
        s₃.revenueSchedule 1 = some schedule ∧ ExactSchedule schedule 2592000 Interval.monthly.seconds 1000 finish := by
  intro calls
  refine ⟨by decide +kernel, (errorOf_eq_some _ _).mp (by decide +kernel), ?_⟩
  rintro ⟨s₃, schedule, finish, generated, -⟩
  have fails : generateRevenueSchedule (trial calls).state 1 1 1000 2592000 Interval.monthly.seconds =
    .error (.message "period_secs must be > 0") := rfl
  cases fails.symm.trans generated

end SubTrackr.Subscriptions
