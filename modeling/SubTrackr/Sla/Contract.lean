import SubTrackr.Lib.Histories
import SubTrackr.Lib.Store
import SubTrackr.Soroban

namespace SubTrackr.Sla

open Lib Soroban

def defaultUptimeTargetBps : Nat := 9900
def defaultMeasurementIntervalSecs : Nat := 604800

inductive AvailabilityState where
  | healthy | partialOutage | fullOutage | maintenance
  deriving DecidableEq

structure SLAConfig where
  (uptimeTargetBps measurementInterval : Nat)

structure AvailabilitySample where
  id : Nat
  merchantId : Address
  (timestamp durationSecs : Nat)
  state : AvailabilityState
  note : String

structure SLABreach where
  id : Nat
  merchantId : Address
  detectedAt : Nat
  uptimeTargetBps : Nat
  uptimeBps : Nat
  measurementInterval : Nat
  (observedSeconds downtimeSeconds partialOutageSeconds maintenanceSeconds : Nat)
  creditAmount : Int
  resolvedAt : Nat
  acknowledged : Bool

structure SLAStatus where
  merchantId : Address
  uptimeTargetBps : Nat
  measurementInterval : Nat
  observedSeconds : Nat
  uptimeBps : Nat
  (downtimeSeconds partialOutageSeconds maintenanceSeconds breachCount activeBreachId : Nat)
  creditBalance : Int
  compliant : Bool
  (lastUpdatedAt lastBreachAt : Nat)

structure Metrics where
  (observedSeconds downtimeSeconds partialOutageSeconds maintenanceSeconds uptimeBps : Nat)

structure State where
  admin : Option Address
  config : Store Address SLAConfig
  status : Store Address SLAStatus
  sampleCount : Store Address Nat
  sample : Store (Address × Nat) AvailabilitySample
  breachCount : Option Nat
  breach : Store Nat SLABreach
  events : List (Address × Nat × Nat × Int)

def State.empty : State where
  admin := none
  config := fun _ => none
  status := fun _ => none
  sampleCount := fun _ => none
  sample := fun _ => none
  breachCount := none
  breach := fun _ => none
  events := []

def getAdmin (s : State) : Result Address := expect s.admin "Admin not set"

def configOf (s : State) (merchantId : Address) : SLAConfig :=
  (s.config merchantId).getD ⟨defaultUptimeTargetBps, defaultMeasurementIntervalSecs⟩

def calculateImpact (sample : AvailabilitySample) : Nat × Nat × Nat :=
  match sample.state with
  | .healthy => (0, 0, 0)
  | .maintenance => (0, 0, sample.durationSecs)
  | .partialOutage => (sample.durationSecs / 2, sample.durationSecs, 0)
  | .fullOutage => (sample.durationSecs, 0, 0)

def calculateCreditAmount (status : SLAStatus) : Result Int :=
  if status.uptimeTargetBps ≤ status.uptimeBps then return 0
  else do
    let deficitBps := status.uptimeTargetBps - status.uptimeBps
    let severity ← u64 (status.downtimeSeconds + status.partialOutageSeconds / 2)
    let weighted ← i128 ((deficitBps * severity * 100 : Nat) : Int)
    return max (weighted.tdiv (max status.measurementInterval 1 : Nat)) 1

def merchantSamples (s : State) (merchantId : Address) : List AvailabilitySample :=
  (List.range' 1 ((s.sampleCount merchantId).getD 0)).filterMap fun i => s.sample (merchantId, i)

def merchantBreaches (s : State) (merchantId : Address) : List SLABreach :=
  ((List.range' 1 (s.breachCount.getD 0)).filterMap s.breach).filter fun breach => breach.merchantId = merchantId

def activeBreach (s : State) (merchantId : Address) : Option SLABreach :=
  (merchantBreaches s merchantId).reverse.find? fun breach => breach.resolvedAt = 0

def AvailabilitySample.finish (sample : AvailabilitySample) : Nat := min (sample.timestamp + sample.durationSecs) u64Max

def Metrics.round (now windowStart : Nat) (metrics : Metrics) (sample : AvailabilitySample) : Result Metrics :=
  let sampleStart := sample.timestamp
  let sampleEnd := sample.finish
  if sampleEnd ≤ windowStart ∨ now ≤ sampleStart then return metrics
  else
    let overlapStart := max sampleStart windowStart
    let overlapEnd := min sampleEnd now
    if overlapEnd ≤ overlapStart then return metrics
    else do
      let overlap := overlapEnd - overlapStart
      let (downtime, partialOutage, maintenance) :=
        calculateImpact { sample with timestamp := overlapStart, durationSecs := overlap }
      let observedSeconds ← u64 (metrics.observedSeconds + overlap)
      let downtimeSeconds ← u64 (metrics.downtimeSeconds + downtime)
      let partialOutageSeconds ← u64 (metrics.partialOutageSeconds + partialOutage)
      let maintenanceSeconds ← u64 (metrics.maintenanceSeconds + maintenance)
      return { metrics with observedSeconds, downtimeSeconds, partialOutageSeconds, maintenanceSeconds }

def calculateMetrics (now : Nat) (s : State) (config : SLAConfig) (merchantId : Address) : Result Metrics := do
  let windowStart := now - config.measurementInterval
  let metrics ← (merchantSamples s merchantId).foldlM (Metrics.round now windowStart) ⟨0, 0, 0, 0, 0⟩
  let uptimeBps :=
    if metrics.observedSeconds = 0 then 10000
    else 10000 - metrics.downtimeSeconds * 10000 / metrics.observedSeconds % 2 ^ 32
  return { metrics with uptimeBps }

def totalCredits (breaches : List SLABreach) : Result Int :=
  breaches.foldlM (fun total breach => i128 (total + breach.creditAmount)) 0

def statusOf (now : Nat) (merchantId : Address) (config : SLAConfig) (metrics : Metrics) (breaches : List SLABreach)
    (active : Option SLABreach) (creditBalance : Int) : SLAStatus where
  merchantId := merchantId
  uptimeTargetBps := config.uptimeTargetBps
  measurementInterval := config.measurementInterval
  observedSeconds := metrics.observedSeconds
  uptimeBps := metrics.uptimeBps
  downtimeSeconds := metrics.downtimeSeconds
  partialOutageSeconds := metrics.partialOutageSeconds
  maintenanceSeconds := metrics.maintenanceSeconds
  breachCount := breaches.length
  activeBreachId := (active.map (·.id)).getD 0
  creditBalance := creditBalance
  compliant := config.uptimeTargetBps ≤ metrics.uptimeBps
  lastUpdatedAt := now
  lastBreachAt := (breaches.map (·.detectedAt)).max?.getD 0

def breachOf (now id : Nat) (status : SLAStatus) (creditAmount : Int) : SLABreach where
  id := id
  merchantId := status.merchantId
  detectedAt := now
  uptimeTargetBps := status.uptimeTargetBps
  uptimeBps := status.uptimeBps
  measurementInterval := status.measurementInterval
  observedSeconds := status.observedSeconds
  downtimeSeconds := status.downtimeSeconds
  partialOutageSeconds := status.partialOutageSeconds
  maintenanceSeconds := status.maintenanceSeconds
  creditAmount := creditAmount
  resolvedAt := 0
  acknowledged := false

def upsertStatus (now : Nat) (merchantId : Address) (config : SLAConfig) (s : State) :
    Result (State × SLAStatus × Option SLABreach) := do
  let metrics ← calculateMetrics now s config merchantId
  let breaches := merchantBreaches s merchantId
  let active := activeBreach s merchantId
  let creditBalance ← totalCredits breaches
  let status := statusOf now merchantId config metrics breaches active creditBalance
  if status.compliant then
    match active with
    | some breach =>
      return ({ s with breach := put s.breach breach.id { breach with resolvedAt := now } },
        { status with activeBreachId := 0 }, none)
    | none => return (s, status, none)
  else if active.isSome then return (s, status, none)
  else
    let breachId ← u64 (s.breachCount.getD 0 + 1)
    let creditAmount ← calculateCreditAmount status
    let breach := breachOf now breachId status creditAmount
    let breachCount ← u64 (status.breachCount + 1)
    let creditBalance ← i128 (status.creditBalance + creditAmount)
    return ({ s with
        breachCount := some breachId
        breach := put s.breach breachId breach
        events := s.events ++ [(merchantId, breachId, status.uptimeBps, creditAmount)] },
      { status with breachCount, activeBreachId := breachId, creditBalance, lastBreachAt := now }, some breach)

def refreshStatus (host : Host) (merchantId : Address) (config : SLAConfig) (s : State) : Result (State × SLAStatus) := do
  let (s, status, _) ← upsertStatus host.timestamp merchantId config s
  return ({ s with status := put s.status merchantId status }, status)

def initializeSla (host : Host) (admin : Address) (s : State) : Result State := do
  host.requireAuth admin
  return { s with admin := some admin }

def SLAConfig.normalized (config : SLAConfig) : SLAConfig where
  uptimeTargetBps := max (min config.uptimeTargetBps 10000) 1
  measurementInterval := max config.measurementInterval 1

def configureSla (host : Host) (merchantId : Address) (config : SLAConfig) (s : State) : Result State := do
  let admin ← getAdmin s
  host.requireAuth admin
  let s := { s with config := put s.config merchantId config.normalized }
  let (s, _) ← refreshStatus host merchantId config.normalized s
  return s

def storeSample (s : State) (sample : AvailabilitySample) : State :=
  { s with
    sampleCount := put s.sampleCount sample.merchantId sample.id
    sample := put s.sample (sample.merchantId, sample.id) sample }

def recordServiceAvailability (host : Host) (merchantId : Address) (durationSecs : Nat) (state : AvailabilityState)
    (note : String) (s : State) : Result State := do
  let config := configOf s merchantId
  let nextId ← u64 ((s.sampleCount merchantId).getD 0 + 1)
  let sample : AvailabilitySample := {
    id := nextId, merchantId, timestamp := host.timestamp, durationSecs := max durationSecs 1, state, note }
  let (s, _) ← refreshStatus host merchantId config (storeSample s sample)
  return s

def detectSlaBreach (host : Host) (merchantId : Address) (s : State) : Result State := do
  let (s, _) ← refreshStatus host merchantId (configOf s merchantId) s
  return s

def getSlaStatus (host : Host) (merchantId : Address) (s : State) : Result (State × SLAStatus) :=
  refreshStatus host merchantId (configOf s merchantId) s

inductive Call where
  | initializeSla (admin : Address)
  | configureSla (merchantId : Address) (config : SLAConfig)
  | recordServiceAvailability (merchantId : Address) (durationSecs : Nat) (state : AvailabilityState) (note : String)
  | detectSlaBreach (merchantId : Address)
  | getSlaStatus (merchantId : Address)

def exec (host : Host) (s : State) : Call → Result State
  | .initializeSla admin => initializeSla host admin s
  | .configureSla merchantId config => configureSla host merchantId config s
  | .recordServiceAvailability merchantId durationSecs state note =>
    recordServiceAvailability host merchantId durationSecs state note s
  | .detectSlaBreach merchantId => detectSlaBreach host merchantId s
  | .getSlaStatus merchantId => do
    let (s, _) ← getSlaStatus host merchantId s
    return s

end SubTrackr.Sla
