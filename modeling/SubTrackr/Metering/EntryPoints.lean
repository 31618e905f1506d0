import SubTrackr.Types
import SubTrackr.Lib.Store
import SubTrackr.Lib.Ledger

namespace SubTrackr.Metering

open Lib Soroban

def defaultPeriodSecs : Nat := 86400
def maxBuckets : Nat := 90

inductive MeteringError where
  | invalidValue | invalidPeriod | meterNotFound | invalidTiers
  deriving DecidableEq

abbrev Outcome (α : Type) := Except (Failure MeteringError) α

structure MeteredUsage where
  metric : String
  (value timestamp : Nat)

structure UsageBucket where
  (start units : Nat)
  deriving DecidableEq

inductive PricingModel where
  | flat | graduated | volume | package
  deriving DecidableEq

structure PriceTier where
  upToUnits : Nat
  (unitPrice flatFee : Int)
  deriving DecidableEq

structure TierLine where
  (upToUnits units : Nat)
  (unitPrice amount : Int)
  deriving DecidableEq

structure MeterState where
  metric : String
  (total lastTimestamp periodSecs includedUnits : Nat)
  unitPrice : Int
  alertThreshold : Nat
  alertFired : Bool
  pricingModel : PricingModel
  tiers : List PriceTier
  buckets : List UsageBucket
  deriving DecidableEq

structure ChargeLine where
  metric : String
  (units billableUnits : Nat)
  (unitPrice amount : Int)
  tierLines : List TierLine

structure Charge where
  subscriptionId : Nat
  currency : String
  total : Int
  lines : List ChargeLine

inductive Event where
  | usageAlert (subscriptionId : Nat) (meter : String) (total alertThreshold : Nat)
  | usage (subscriptionId : Nat) (observation : MeteredUsage)

structure State where
  meters : Store Nat (List String)
  meter : Store (Nat × String) MeterState
  events : List Event

def State.empty : State where
  meters := fun _ => none
  meter := fun _ => none
  events := []

def State.publish (s : State) (event : Event) : State := { s with events := s.events ++ [event] }

def bucketStart (now periodSecs : Nat) : Nat := if periodSecs = 0 then now else now - now % periodSecs

def billableUnits (used included : Nat) : Nat := used - included

def selectTier (tiers : List PriceTier) (units : Nat) : Option PriceTier :=
  match tiers.find? fun tier => decide (tier.upToUnits = 0 ∨ units ≤ tier.upToUnits) with
  | some tier => some tier
  | none => tiers.getLast?

def validateTiersFrom (previous : Nat) : List PriceTier → Bool
  | [] => true
  | tier :: tiers =>
    if tier.unitPrice < 0 ∨ tier.flatFee < 0 then false
    else if tier.upToUnits = 0 then tiers.isEmpty
    else if tier.upToUnits ≤ previous then false
    else validateTiersFrom tier.upToUnits tiers

def validateTiers (tiers : List PriceTier) : Bool := validateTiersFrom 0 tiers

def flatLine (units : Nat) (unitPrice : Int) : TierLine where
  upToUnits := 0
  units := units
  unitPrice := unitPrice
  amount := i128Saturating (units * unitPrice)

def rateTiers : List PriceTier → Nat → Nat → Int → List TierLine → Nat × Int × List TierLine
  | [], remaining, _, total, lines => (remaining, total, lines)
  | tier :: tiers, remaining, lower, total, lines =>
    if remaining = 0 then (remaining, total, lines)
    else
      let capacity := if tier.upToUnits = 0 then remaining else tier.upToUnits - lower
      let units := if remaining < capacity then remaining else capacity
      let amount := i128Saturating (i128Saturating (units * tier.unitPrice) + tier.flatFee)
      let line : TierLine := { upToUnits := tier.upToUnits, units, unitPrice := tier.unitPrice, amount }
      let (remaining, total, lines) :=
        if 0 < units then (remaining - units, i128Saturating (total + amount), lines ++ [line])
        else (remaining, total, lines)
      if tier.upToUnits = 0 then (remaining, total, lines)
      else rateTiers tiers remaining tier.upToUnits total lines

def rateUnits (model : PricingModel) (billable : Nat) (unitPrice : Int) (tiers : List PriceTier) :
    Int × List TierLine :=
  if billable = 0 then (0, [])
  else match model with
    | .flat =>
      let line := flatLine billable unitPrice
      (line.amount, [line])
    | .graduated =>
      let (remaining, total, lines) := rateTiers tiers billable 0 0 []
      -- units beyond the last bounded tier fall back to the flat rate
      if 0 < remaining then
        let line := flatLine remaining unitPrice
        (i128Saturating (total + line.amount), lines ++ [line])
      else (total, lines)
    | .volume =>
      let (price, bound, fee) := match selectTier tiers billable with
        | some tier => (tier.unitPrice, tier.upToUnits, tier.flatFee)
        | none => (unitPrice, 0, 0)
      let amount := i128Saturating (i128Saturating (billable * price) + fee)
      (amount, [{ upToUnits := bound, units := billable, unitPrice := price, amount }])
    | .package =>
      let (block, fee, bound) := match selectTier tiers billable with
        | some tier => (tier.upToUnits, tier.flatFee, tier.upToUnits)
        | none => (0, 0, 0)
      if block = 0 then
        let line := flatLine billable unitPrice
        (line.amount, [line])
      else
        let blocks := (billable + block - 1) / block
        let amount := i128Saturating (blocks * fee)
        (amount, [{ upToUnits := bound, units := billable, unitPrice := fee, amount }])

def metrics (s : State) (sub : Nat) : List String := (s.meters sub).getD []

def saveMeter (s : State) (sub : Nat) (state : MeterState) : State :=
  { s with meter := put s.meter (sub, state.metric) state }

def trackMetric (s : State) (sub : Nat) (metric : String) : State :=
  if metric ∈ metrics s sub then s else { s with meters := put s.meters sub (metrics s sub ++ [metric]) }

/-- The buckets with the usage of one observation added, without the oldest when there are too many. -/
def addToBucket (buckets : List UsageBucket) (periodSecs now value : Nat) : List UsageBucket :=
  let start := bucketStart now periodSecs
  let pushed := buckets ++ [{ start, units := value }]
  match buckets.getLast? with
  | some last =>
    if last.start = start then buckets.dropLast ++ [{ start, units := min (last.units + value) u64Max }]
    else pushed.drop (pushed.length - maxBuckets)
  | none => pushed.drop (pushed.length - maxBuckets)

def UsageBucket.within (b : UsageBucket) (period : TimeRange) : Bool :=
  decide (period.start ≤ b.start ∧ b.start ≤ period.finish)

def usageInRange (buckets : List UsageBucket) (period : TimeRange) : Nat :=
  buckets.foldl (fun used b => if b.within period then min (used + b.units) u64Max else used) 0

def registerTieredMeter (host : Host) (s : State) (reporter : Address) (subscriptionId : Nat) (meter : String)
    (unitPrice : Int) (includedUnits periodSecs alertThreshold : Nat) (pricingModel : PricingModel)
    (tiers : List PriceTier) : Outcome State := do
  orPanic (host.requireAuth reporter)
  require (periodSecs ≠ 0) (.error .invalidPeriod)
  require (0 ≤ unitPrice) (.error .invalidValue)
  require (validateTiers tiers = true) (.error .invalidTiers)
  require (pricingModel = .flat ∨ tiers ≠ []) (.error .invalidTiers)
  let state := (s.meter (subscriptionId, meter)).getD
    { metric := meter, total := 0, lastTimestamp := 0, periodSecs, includedUnits, unitPrice, alertThreshold
      alertFired := false, pricingModel, tiers, buckets := [] }
  let state := { state with
    periodSecs, includedUnits, unitPrice, pricingModel, tiers, alertThreshold
    alertFired := decide (alertThreshold ≤ state.total ∧ alertThreshold ≠ 0) }
  return trackMetric (saveMeter s subscriptionId state) subscriptionId meter

def registerMeter (host : Host) (s : State) (reporter : Address) (subscriptionId : Nat) (meter : String)
    (unitPrice : Int) (includedUnits periodSecs alertThreshold : Nat) : Outcome State :=
  registerTieredMeter host s reporter subscriptionId meter unitPrice includedUnits periodSecs alertThreshold .flat []

def MeterState.unpriced (metric : String) : MeterState where
  metric := metric
  total := 0
  lastTimestamp := 0
  periodSecs := defaultPeriodSecs
  includedUnits := 0
  unitPrice := 0
  alertThreshold := 0
  alertFired := false
  pricingModel := .flat
  tiers := []
  buckets := []

def MeterState.observe (state : MeterState) (now value : Nat) : MeterState :=
  { state with
    total := min (state.total + value) u64Max
    lastTimestamp := now
    buckets := addToBucket state.buckets state.periodSecs now value }

def MeterState.alerts (state : MeterState) : Bool :=
  decide (state.alertThreshold ≠ 0 ∧ state.alertFired = false ∧ state.alertThreshold ≤ state.total)

def recordMeteredUsage (host : Host) (s : State) (reporter : Address) (subscriptionId : Nat) (meter : String)
    (value : Nat) : Outcome (MeteredUsage × State) := do
  orPanic (host.requireAuth reporter)
  require (value ≠ 0) (.error .invalidValue)
  let now := host.timestamp
  let state := ((s.meter (subscriptionId, meter)).getD (.unpriced meter)).observe now value
  let s := if state.alerts then s.publish (.usageAlert subscriptionId meter state.total state.alertThreshold) else s
  let state := { state with alertFired := state.alertFired || state.alerts }
  let s := trackMetric (saveMeter s subscriptionId state) subscriptionId meter
  let observation : MeteredUsage := { metric := meter, value, timestamp := now }
  return (observation, s.publish (.usage subscriptionId observation))

def chargeLine (state : MeterState) (metric : String) (units : Nat) : ChargeLine :=
  let billable := billableUnits units state.includedUnits
  let (amount, tierLines) := rateUnits state.pricingModel billable state.unitPrice state.tiers
  { metric, units, billableUnits := billable, unitPrice := state.unitPrice, amount, tierLines }

def calculateUsageCharge (s : State) (subscriptionId : Nat) (period : TimeRange) : Outcome Charge := do
  require (period.start ≤ period.finish) (.error .invalidPeriod)
  let lines := (metrics s subscriptionId).filterMap fun metric =>
    (s.meter (subscriptionId, metric)).map fun state => chargeLine state metric (usageInRange state.buckets period)
  return {
    subscriptionId
    currency := "USD"
    total := lines.foldl (fun total line => i128Saturating (total + line.amount)) 0
    lines }

def getMeters (s : State) (subscriptionId : Nat) : List String := metrics s subscriptionId

def getMeter (s : State) (subscriptionId : Nat) (meter : String) : Outcome MeterState :=
  present (s.meter (subscriptionId, meter)) (.error .meterNotFound)

def quoteUsage (s : State) (subscriptionId : Nat) (meter : String) (units : Nat) : Outcome ChargeLine := do
  let state ← present (s.meter (subscriptionId, meter)) (.error .meterNotFound)
  return chargeLine state meter units

def getUsageTotal (s : State) (subscriptionId : Nat) (meter : String) : Nat :=
  ((s.meter (subscriptionId, meter)).map (·.total)).getD 0

inductive Call where
  | registerMeter (reporter : Address) (subscriptionId : Nat) (meter : String) (unitPrice : Int)
    (includedUnits periodSecs alertThreshold : Nat)
  | registerTieredMeter (reporter : Address) (subscriptionId : Nat) (meter : String) (unitPrice : Int)
    (includedUnits periodSecs alertThreshold : Nat) (pricingModel : PricingModel) (tiers : List PriceTier)
  | recordMeteredUsage (reporter : Address) (subscriptionId : Nat) (meter : String) (value : Nat)

structure Tx where
  host : Host
  call : Call

def exec (tx : Tx) (s : State) : Outcome State :=
  match tx.call with
  | .registerMeter reporter subscriptionId meter unitPrice includedUnits periodSecs alertThreshold =>
    registerMeter tx.host s reporter subscriptionId meter unitPrice includedUnits periodSecs alertThreshold
  | .registerTieredMeter reporter subscriptionId meter unitPrice includedUnits periodSecs alertThreshold pricingModel
      tiers =>
    registerTieredMeter tx.host s reporter subscriptionId meter unitPrice includedUnits periodSecs alertThreshold
      pricingModel tiers
  | .recordMeteredUsage reporter subscriptionId meter value => do
    let (_, s) ← recordMeteredUsage tx.host s reporter subscriptionId meter value
    return s

def contract : Contract Tx State (Failure MeteringError) where
  time tx := tx.host.timestamp
  exec := exec

abbrev World := Ledger Tx State

def Deployed (s : State) : Prop := s = .empty

abbrev Reachable (guard : World → Tx → Prop) (w : World) : Prop :=
  Ledger.Reachable contract Deployed guard w

def signedBy (now : Nat) (signers : List Address) : Host where
  timestamp := now
  authorized := fun address => signers.contains address

def trial (calls : List (Nat × List Address × Call)) : World :=
  Ledger.run contract (Ledger.genesis .empty) (calls.map fun (now, signers, call) => ⟨signedBy now signers, call⟩)

theorem trial_reachable (calls : List (Nat × List Address × Call)) : Reachable Ledger.anyTx (trial calls) :=
  ⟨.empty, rfl, Ledger.Steps.run (fun _ _ _ => trivial) _⟩

def Priced (m : MeterState) : Prop := validateTiers m.tiers = true ∧ 0 ≤ m.unitPrice

structure Stores (s s' : State) (sub : Nat) (metric : String) (m : MeterState) : Prop where
  named : (∀ old, s.meter (sub, metric) = some old → old.metric = metric) → m.metric = metric
  priced : (∀ old, s.meter (sub, metric) = some old → Priced old) → Priced m
  meter : s'.meter = put s.meter (sub, m.metric) m
  meters : s'.meters = (trackMetric s sub metric).meters

section Calls

variable {host : Host} {s s' : State} {reporter : Address} {sub : Nat} {metric : String}

theorem saveMeter_tracked (s : State) (sub : Nat) (m : MeterState) (metric : String) :
    (trackMetric (saveMeter s sub m) sub metric).meter = put s.meter (sub, m.metric) m ∧
      (trackMetric (saveMeter s sub m) sub metric).meters = (trackMetric s sub metric).meters := by
  have same : metrics (saveMeter s sub m) sub = metrics s sub := rfl
  unfold trackMetric
  rw [same]
  split <;> exact ⟨rfl, rfl⟩

theorem trackMetric_publish (s : State) (event : Event) (sub : Nat) (metric : String) :
    (trackMetric (s.publish event) sub metric).meters = (trackMetric s sub metric).meters := by
  have same : metrics (s.publish event) sub = metrics s sub := rfl
  unfold trackMetric
  rw [same]
  split <;> rfl

theorem registerTieredMeter_ok {unitPrice : Int} {includedUnits periodSecs alertThreshold : Nat}
    {pricingModel : PricingModel} {tiers : List PriceTier}
    (run : registerTieredMeter host s reporter sub metric unitPrice includedUnits periodSecs alertThreshold pricingModel
      tiers = .ok s') : ∃ m, Stores s s' sub metric m := by
  simp only [registerTieredMeter, bind_eq_ok, pure_eq_ok, require_eq_ok] at run
  obtain ⟨_, _, _, _, _, price, _, valid, _, _, rfl⟩ := run
  refine ⟨_, ?_, fun _ => ⟨valid, price⟩, (saveMeter_tracked ..).1, (saveMeter_tracked ..).2⟩
  intro named
  cases held : s.meter (sub, metric) with
  | none => rfl
  | some old => exact named old held

theorem recordMeteredUsage_ok {value : Nat} {observation : MeteredUsage}
    (run : recordMeteredUsage host s reporter sub metric value = .ok (observation, s')) :
    ∃ m, Stores s s' sub metric m ∧
      m.buckets = (((s.meter (sub, metric)).getD (.unpriced metric)).observe host.timestamp value).buckets := by
  simp only [recordMeteredUsage, bind_eq_ok, pure_eq_ok, require_eq_ok, Prod.mk.injEq] at run
  obtain ⟨_, _, _, _, _, rfl⟩ := run
  generalize known : ((s.meter (sub, metric)).getD (.unpriced metric)).observe host.timestamp value = m
  have base : m.metric = ((s.meter (sub, metric)).getD (.unpriced metric)).metric ∧
      (m.tiers = ((s.meter (sub, metric)).getD (.unpriced metric)).tiers) ∧
      m.unitPrice = ((s.meter (sub, metric)).getD (.unpriced metric)).unitPrice := by
    rw [← known]
    exact ⟨rfl, rfl, rfl⟩
  refine ⟨{ m with alertFired := m.alertFired || m.alerts }, ⟨?_, ?_, ?_, ?_⟩, rfl⟩
  · intro named
    show m.metric = metric
    rw [base.1]
    cases held : s.meter (sub, metric) with
    | none => rfl
    | some old => exact named old held
  · intro priced
    show validateTiers m.tiers = true ∧ 0 ≤ m.unitPrice
    rw [base.2.1, base.2.2]
    cases held : s.meter (sub, metric) with
    | none => exact ⟨rfl, le_rfl⟩
    | some old => exact priced old held
  · refine (saveMeter_tracked _ sub _ metric).1.trans ?_
    split <;> rfl
  · refine (saveMeter_tracked _ sub _ metric).2.trans ?_
    split
    · exact trackMetric_publish ..
    · rfl

end Calls

theorem exec_stores {tx : Tx} {s s' : State} (run : exec tx s = .ok s') : ∃ sub metric m, Stores s s' sub metric m := by
  obtain ⟨host, call⟩ := tx
  cases call with
  | registerMeter reporter sub metric => exact ⟨sub, metric, registerTieredMeter_ok run⟩
  | registerTieredMeter reporter sub metric => exact ⟨sub, metric, registerTieredMeter_ok run⟩
  | recordMeteredUsage reporter sub metric value =>
    simp only [exec, bind_eq_ok, pure_eq_ok] at run
    obtain ⟨⟨observation, _⟩, run, rfl⟩ := run
    obtain ⟨m, stores, _⟩ := recordMeteredUsage_ok run
    exact ⟨sub, metric, m, stores⟩

/-- Every meter is stored under its metric, is listed, and is priced as registration demands; every metric that is
    listed has a meter. -/
structure Registered (s : State) : Prop where
  named : ∀ sub metric m, s.meter (sub, metric) = some m → m.metric = metric
  priced : ∀ sub metric m, s.meter (sub, metric) = some m → Priced m
  listed : ∀ sub metric, metric ∈ metrics s sub ↔ s.meter (sub, metric) ≠ none
  once : ∀ sub, (metrics s sub).Nodup

section Step

variable {s s' : State} {sub : Nat} {metric : String} {m : MeterState}

theorem metrics_trackMetric (s : State) (sub : Nat) (metric : String) (other : Nat) :
    metrics (trackMetric s sub metric) other =
      if other = sub ∧ metric ∉ metrics s sub then metrics s sub ++ [metric] else metrics s other := by
  unfold trackMetric
  by_cases known : metric ∈ metrics s sub
  · simp [known]
  · rw [if_neg known]
    show (put s.meters sub (metrics s sub ++ [metric]) other).getD [] = _
    rw [put_apply]
    by_cases here : other = sub
    · simp [here, known]
    · simp [here, metrics]

theorem mem_trackMetric (s : State) (sub : Nat) (metric : String) (other : Nat) (name : String) :
    name ∈ metrics (trackMetric s sub metric) other ↔ name ∈ metrics s other ∨ other = sub ∧ name = metric := by
  rw [metrics_trackMetric]
  split
  · rename_i new
    simp [new.1]
  · rename_i old
    constructor
    · exact .inl
    · rintro (known | ⟨rfl, rfl⟩)
      · exact known
      · by_contra absent
        exact old ⟨rfl, absent⟩

theorem trackMetric_nodup (once : ∀ sub, (metrics s sub).Nodup) (other : Nat) :
    (metrics (trackMetric s sub metric) other).Nodup := by
  rw [metrics_trackMetric]
  split
  · rename_i new
    rw [List.nodup_append]
    refine ⟨once sub, by simp, ?_⟩
    intro a mem b single same
    rw [List.mem_singleton.mp single] at same
    exact new.2 (same ▸ mem)
  · exact once other

theorem Registered.stores (registered : Registered s) (stores : Stores s s' sub metric m) : Registered s' := by
  have name := stores.named fun old held => registered.named sub metric old held
  have price := stores.priced fun old held => registered.priced sub metric old held
  have meter := stores.meter
  rw [name] at meter
  have tracked (other : Nat) : metrics s' other = metrics (trackMetric s sub metric) other := by
    unfold metrics
    rw [stores.meters]
  refine ⟨?_, ?_, ?_, ?_⟩
  · intro other key m' held
    rw [meter, put_eq_some] at held
    obtain ⟨here, rfl⟩ | ⟨_, held⟩ := held
    · cases here
      exact name
    · exact registered.named other key m' held
  · intro other key m' held
    rw [meter, put_eq_some] at held
    obtain ⟨_, rfl⟩ | ⟨_, held⟩ := held
    · exact price
    · exact registered.priced other key m' held
  · intro other key
    rw [tracked, mem_trackMetric, registered.listed, meter, put_apply]
    split
    · rename_i here
      cases here
      simp
    · rename_i elsewhere
      constructor
      · rintro (old | ⟨rfl, rfl⟩)
        · exact old
        · exact absurd rfl elsewhere
      · exact .inl
  · intro other
    rw [tracked]
    exact trackMetric_nodup registered.once other

end Step

theorem registered_reachable {guard : World → Tx → Prop} {w : World} (reached : Reachable guard w) :
    Registered w.state := by
  refine reached.state_invariant ?_ ?_
  · intro s deployed
    rw [deployed]
    exact ⟨fun _ _ _ held => (nomatch held), fun _ _ _ held => (nomatch held), by simp [metrics, State.empty],
      fun _ => List.nodup_nil⟩
  · intro w tx s _ _ run registered
    obtain ⟨sub, metric, m, stores⟩ := exec_stores run
    exact registered.stores stores

end SubTrackr.Metering
