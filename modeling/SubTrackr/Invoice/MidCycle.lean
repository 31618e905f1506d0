import SubTrackr.Invoice.Jurisdiction

namespace SubTrackr.Invoices

open Lib Soroban

/-- The rate of an entry at `t`: the last logged change that is effective by then has set it. -/
def rateAt (s : State) (entry : TaxRateEntry) (t : Nat) : Nat :=
  let log := changeLog s entry.jurisdictionKey
  match (log.filter fun e => decide (e.effectiveDate ≤ t)).getLast? with
  | some e => e.newRateBps
  | none => (log.head?.map (·.oldRateBps)).getD entry.rateBps

def changesWithin (s : State) (jurisdictionKey : String) (period : TimeRange) : Prop :=
  ∃ e ∈ changeLog s jurisdictionKey, period.start < e.effectiveDate ∧ e.effectiveDate < period.finish

instance (s : State) (jurisdictionKey : String) (period : TimeRange) :
    Decidable (changesWithin s jurisdictionKey period) := inferInstanceAs (Decidable (∃ e ∈ _, _))

/-- The rate configured for a jurisdiction is `r` from the start of the period to its end: neither the jurisdiction nor
    the one that its rate is resolved from changes in between. -/
structure ConstantRate (s : State) (country state city : String) (period : TimeRange) (r : Nat) : Prop where
  unchanged : ¬ changesWithin s (buildJurisdictionKey country state city) period
  resolved : ¬ changesWithin s (resolveTaxRateEntry s country state city).jurisdictionKey period
  rate : rateAt s (resolveTaxRateEntry s country state city) period.start = r

section Rates

variable {s : State} {entry : TaxRateEntry} {country state city : String} {period : TimeRange} {r t : Nat}

end Rates

section Tax

variable {s : State} {country state city jurisdictionKey : String} {period : TimeRange} {r : Nat} {subtotal : Int}

theorem taxSegments_unchanged {log : List TaxRateChangeEvent} (acc : Int × Nat)
    (outside : ∀ e ∈ log, ¬ (period.start < e.effectiveDate ∧ e.effectiveDate < period.finish)) :
    log.foldlM (taxSegment subtotal period) acc = .ok acc := by
  induction log generalizing acc with
  | nil => rfl
  | cons e log ih =>
    have skipped : e.effectiveDate ≤ period.start ∨ period.finish ≤ e.effectiveDate := by
      have here := outside e (.head _)
      omega
    rw [List.foldlM_cons, taxSegment, if_pos skipped]
    exact ih acc fun e mem => outside e (.tail _ mem)

theorem segmentTax_whole {duration : Nat} (pos : 0 < duration) (rate : Nat) (tax : Int) :
    segmentTax subtotal duration duration rate = .ok tax ↔
      (-2 ^ 127 ≤ subtotal * 10000 ∧ subtotal * 10000 < 2 ^ 127) ∧ calculateTax subtotal rate = tax := by
  have ratio : ((duration * 10000 / duration : Nat) : Int) = 10000 := by
    rw [Nat.mul_div_cancel_left _ pos]
    rfl
  have back : (subtotal * 10000).tdiv 10000 = subtotal := Int.mul_tdiv_cancel _ (by decide)
  simp only [segmentTax, ratio, bind_eq_ok, pure_eq_ok, i128_eq_ok]
  constructor
  · rintro ⟨_, ⟨fits, rfl⟩, same⟩
    rw [back] at same
    exact ⟨fits, same⟩
  · rintro ⟨fits, same⟩
    refine ⟨_, ⟨fits, rfl⟩, ?_⟩
    rw [back]
    exact same

theorem calculateTax_fits (subtotal : Int) (rate : Nat) :
    -2 ^ 127 ≤ calculateTax subtotal rate ∧ calculateTax subtotal rate < 2 ^ 127 := by
  have bounds : -2 ^ 127 ≤ saturate (subtotal * rate) ∧ saturate (subtotal * rate) < 2 ^ 127 := by
    unfold saturate
    omega
  have size : (calculateTax subtotal rate).natAbs = (saturate (subtotal * rate)).natAbs / 10000 :=
    Int.natAbs_tdiv _ 10000
  omega

theorem calculateMidCycleTax_unchanged (unchanged : ¬ changesWithin s jurisdictionKey period) (tax : Int) :
    calculateMidCycleTax s subtotal jurisdictionKey period = .ok tax ↔
      (changeLog s jurisdictionKey = [] ∨ period.finish ≤ period.start ∨
        -2 ^ 127 ≤ subtotal * 10000 ∧ subtotal * 10000 < 2 ^ 127) ∧
      calculateTax subtotal (getTaxRateBps s jurisdictionKey) = tax := by
  have outside : ∀ e ∈ changeLog s jurisdictionKey,
      ¬ (period.start < e.effectiveDate ∧ e.effectiveDate < period.finish) :=
    fun e mem inside => unchanged ⟨e, mem, inside⟩
  unfold calculateMidCycleTax
  simp only
  split
  · rename_i plain
    rw [ok_eq_ok]
    have covered : changeLog s jurisdictionKey = [] ∨ period.finish ≤ period.start := by
      obtain empty | none := plain
      · exact .inl empty
      · exact .inr (by omega)
    constructor
    · intro same
      exact ⟨covered.imp_right .inl, same⟩
    · exact fun both => both.2
  · rename_i split
    obtain ⟨some, long⟩ := not_or.mp split
    have segments : (changeLog s jurisdictionKey).foldlM (taxSegment subtotal period) (0, period.start) =
        .ok (0, period.start) := taxSegments_unchanged _ outside
    have whole : 0 < period.finish - period.start := Nat.pos_of_ne_zero long
    change changeLog s jurisdictionKey ≠ [] at some
    show (do
      let acc ← (changeLog s jurisdictionKey).foldlM (taxSegment subtotal period) (0, period.start)
      _) = _ ↔ _
    rw [segments, ok_bind]
    simp only [whole, if_true, bind_eq_ok, segmentTax_whole whole, i128_eq_ok, Int.zero_add]
    constructor
    · rintro ⟨_, ⟨fits, rfl⟩, _, same⟩
      exact ⟨.inr (.inr fits), same⟩
    · rintro ⟨covered, same⟩
      have fits := (covered.resolve_left some).resolve_left (by omega)
      exact ⟨_, ⟨fits, rfl⟩, calculateTax_fits .., same⟩

/-- The tax of a constant rate `r`, by the rate that `set_tax_rate` stored for the jurisdiction or else the default. -/
theorem midCycleTax_constant (constant : ConstantRate s country state city period r) (subtotal : Int) :
    calculateMidCycleTax s subtotal (buildJurisdictionKey country state city) period = .ok (subtotal * r / 10000) ↔
      (changeLog s (buildJurisdictionKey country state city) = [] ∨ period.finish ≤ period.start ∨
        -2 ^ 127 ≤ subtotal * 10000 ∧ subtotal * 10000 < 2 ^ 127) ∧
      (saturate (subtotal * getTaxRateBps s (buildJurisdictionKey country state city))).tdiv 10000 =
        subtotal * r / 10000 :=
  calculateMidCycleTax_unchanged constant.unchanged _

end Tax

def california (rateBps : Nat) : Call :=
  .setTaxJurisdiction ⟨1⟩ "US" "CA" "SF" .salesTax rateBps "CA Sales Tax" 0 0 true false 0

def configured : World := trial [(10, [⟨1⟩], .initializeInvoice ⟨1⟩), (20, [⟨1⟩], california 850)]

def configuredTwice : World := trial [(10, [⟨1⟩], .initializeInvoice ⟨1⟩), (20, [⟨1⟩], california 850),
  (30, [⟨1⟩], .setTaxRate ⟨1⟩ "US-CA-SF" 850)]

def month : TimeRange := ⟨1000, 2000⟩

theorem midCycleTax_constant_configuredTwice :
    calculateMidCycleTax configuredTwice.state 10000 (buildJurisdictionKey "US" "CA" "SF") month =
        .ok (10000 * (850 : Nat) / 10000) ↔
      (changeLog configuredTwice.state (buildJurisdictionKey "US" "CA" "SF") = [] ∨ month.finish ≤ month.start ∨
        (-2 ^ 127 : Int) ≤ 10000 * 10000 ∧ (10000 * 10000 : Int) < 2 ^ 127) ∧
      (saturate (10000 * getTaxRateBps configuredTwice.state (buildJurisdictionKey "US" "CA" "SF"))).tdiv 10000 =
        10000 * (850 : Nat) / 10000 :=
  midCycleTax_constant ⟨by decide +kernel, by decide +kernel, by decide +kernel⟩ 10000

theorem midCycleTax_departs : Reachable Ledger.anyTx configured ∧
    calculateMidCycleTax configured.state 10000 (buildJurisdictionKey "US" "CA" "SF") month = .ok 0 ∧
    ¬ ∀ w, Reachable Ledger.anyTx w → ∀ country state city period r subtotal,
      ConstantRate w.state country state city period r →
        calculateMidCycleTax w.state subtotal (buildJurisdictionKey country state city) period =
          .ok (subtotal * r / 10000) := by
  have none : calculateMidCycleTax configured.state 10000 (buildJurisdictionKey "US" "CA" "SF") month = .ok 0 := by
    decide +kernel
  refine ⟨trial_reachable _, none, fun claimed => ?_⟩
  have constant : ConstantRate configured.state "US" "CA" "SF" month 850 :=
    ⟨by decide +kernel, by decide +kernel, by decide +kernel⟩
  have plain := claimed configured (trial_reachable _) "US" "CA" "SF" month 850 10000 constant
  rw [none] at plain
  exact absurd plain (by decide)

end SubTrackr.Invoices
