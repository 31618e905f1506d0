import SubTrackr.Lib.Sums
import SubTrackr.Usage.Counting

namespace SubTrackr.Usage

open List Lib

structure Calendar where
  (getFullYear getMonth : ℤ → ℤ)
  date : ℤ → ℤ → ℤ → ℤ

structure UsageBillingIntegration where
  subscriptionId : String
  (meteredAmount unitPrice totalAmount : ℚ)
  currency : String
  period : ℤ × ℤ

namespace MeteringService

def addEntry (subscriptionId : String) (usage : Store MetricType ℚ) (entry : UsageHistoryEntry) : Store MetricType ℚ :=
  if entry.subscriptionId = subscriptionId then put usage entry.metric ((usage entry.metric).getD 0 + entry.value) else usage

def getUsageByMetric (service : MeteringService) (subscriptionId : String) : Store MetricType ℚ :=
  service.usageHistory.foldl (addEntry subscriptionId) fun _ => none

def totalMetered (usage : Store MetricType ℚ) : ℚ := ([.api, .compute, .storage].filterMap usage).sum

def calculateUsageBilling (calendar : Calendar) (service : MeteringService) (subscriptionId : String) (unitPrice : ℚ)
    (currency : String) (now : ℤ) : UsageBillingIntegration :=
  let year := calendar.getFullYear now
  let month := calendar.getMonth now
  { subscriptionId
    meteredAmount := totalMetered (service.getUsageByMetric subscriptionId)
    unitPrice
    totalAmount := totalMetered (service.getUsageByMetric subscriptionId) * unitPrice
    currency
    period := (calendar.date year month 1, calendar.date year (month + 1) 0) }

end MeteringService

inductive Step
  | call (c : Call)
  | resetPeriod (userId : String) (metricType : MetricType)

def Step.perform (service : MeteringService) : Step → MeteringService
  | .call c => Usage.perform service c
  | .resetPeriod userId metricType => service.resetPeriod userId metricType

def acceptedIn (service : MeteringService) (metrics : List Submission) : List Submission :=
  ((metrics.zip (service.recordAll metrics).2).filter fun r => r.2.status = .accepted).map Prod.fst

def Step.accepted (service : MeteringService) : Step → List Submission
  | .call c => acceptedIn service c.submitted
  | .resetPeriod _ _ => []

structure Month where
  steps : List Step
  unitPrice : ℚ
  currency : String
  now : ℤ

def Month.run (service : MeteringService) (month : Month) : MeteringService := month.steps.foldl Step.perform service

def acceptedOver (service : MeteringService) : List Step → List Submission
  | [] => []
  | step :: rest => step.accepted service ++ acceptedOver (step.perform service) rest

def Month.recorded (service : MeteringService) (subscriptionId : String) (month : Month) : ℚ :=
  (((acceptedOver service month.steps).filter fun s => s.metric.userId = subscriptionId).map fun s => s.metric.amount.getD 0).sum

def billed (calendar : Calendar) (subscriptionId : String) : MeteringService → List Month → List ℚ
  | _, [] => []
  | service, month :: rest =>
    let next := month.run service
    (next.calculateUsageBilling calendar subscriptionId month.unitPrice month.currency month.now).meteredAmount ::
      billed calendar subscriptionId next rest

def recorded (subscriptionId : String) : MeteringService → List Month → List ℚ
  | _, [] => []
  | service, month :: rest => month.recorded service subscriptionId :: recorded subscriptionId (month.run service) rest

structure BilledOnce (calendar : Calendar) (subscriptionId : String) (months : List Month) : Prop where
  total : (billed calendar subscriptionId .new months).sum = (recorded subscriptionId .new months).sum
  monthly : billed calendar subscriptionId .new months = recorded subscriptionId .new months

section Sums

variable {service : MeteringService} {subscriptionId : String}

def usageIn (subscriptionId : String) (entries : List UsageHistoryEntry) : ℚ :=
  ((entries.filter fun e => e.subscriptionId = subscriptionId).map UsageHistoryEntry.value).sum

theorem totalMetered_put (usage : Store MetricType ℚ) (metric : MetricType) (value : ℚ) :
    MeteringService.totalMetered (put usage metric ((usage metric).getD 0 + value)) =
      MeteringService.totalMetered usage + value := by
  have single (m : MetricType) (u : Store MetricType ℚ) (rest : List MetricType) :
      ((m :: rest).filterMap u).sum = (u m).getD 0 + (rest.filterMap u).sum := by
    cases found : u m with
    | none => simp [found]
    | some v => simp [found]
  unfold MeteringService.totalMetered
  simp only [single, filterMap_nil, sum_nil, put_apply]
  cases metric <;> simp <;> ring

theorem usage_eq (subscriptionId : String) (s : MeteringService) :
    MeteringService.totalMetered (s.getUsageByMetric subscriptionId) = usageIn subscriptionId s.usageHistory := by
  have step (entries : List UsageHistoryEntry) (usage : Store MetricType ℚ) :
      MeteringService.totalMetered (entries.foldl (MeteringService.addEntry subscriptionId) usage) =
        MeteringService.totalMetered usage + usageIn subscriptionId entries := by
    induction entries generalizing usage with
    | nil => simp [usageIn]
    | cons e entries ih =>
      rw [foldl_cons, ih]
      unfold MeteringService.addEntry usageIn
      by_cases own : e.subscriptionId = subscriptionId
      · rw [if_pos own, totalMetered_put, filter_cons_of_pos (by simpa using own), map_cons, sum_cons, add_assoc]
      · rw [if_neg own, filter_cons_of_neg (by simpa using own)]
  have nothing : MeteringService.totalMetered (fun _ => none) = 0 := by simp [MeteringService.totalMetered]
  unfold MeteringService.getUsageByMetric
  rw [step, nothing, zero_add]

theorem recordOne_history (s : Submission) : (service.recordOne s).1.usageHistory =
        service.usageHistory ++ (if (service.recordOne s).2.status = .accepted then [s.entry] else []) ∧
      ((service.recordOne s).2.status = .accepted → s.valid = true) := by
  unfold MeteringService.recordOne
  split
  · simp
  · split
    · simp
    · rename_i amount fine
      obtain ⟨given, -⟩ := Option.filter_eq_some_iff.mp fine
      have frame := @checkMetrics_frame (service.store s amount) s.metric.userId s.checkedAt [s.metric.metricType]
      refine ⟨?_, fun _ => ?_⟩
      · have entry : s.entry = ⟨s.metric.userId, s.metric.metricType, amount, s.metric.timestamp⟩ := by
          unfold Submission.entry
          rw [given, Option.getD_some]
        rw [if_pos rfl, entry]
        exact frame.2.2
      · unfold Submission.valid
        rw [fine]
        rfl

theorem recordAll_history (metrics : List Submission) :
    (service.recordAll metrics).1.usageHistory = service.usageHistory ++ (acceptedIn service metrics).map Submission.entry ∧
      ∀ s ∈ acceptedIn service metrics, s.valid = true := by
  induction metrics generalizing service with
  | nil => simp [MeteringService.recordAll, acceptedIn]
  | cons s metrics ih =>
    obtain ⟨one, fine⟩ := @recordOne_history service s
    obtain ⟨more, others⟩ := @ih (service.recordOne s).1
    have split : acceptedIn service (s :: metrics) =
        (if (service.recordOne s).2.status = .accepted then [s] else []) ++ acceptedIn (service.recordOne s).1 metrics := by
      unfold acceptedIn
      rw [MeteringService.recordAll]
      dsimp only
      rw [zip_cons_cons]
      by_cases status : (service.recordOne s).2.status = .accepted
      · rw [filter_cons_of_pos (by simpa using status), if_pos status]
        rfl
      · rw [filter_cons_of_neg (by simpa using status), if_neg status]
        rfl
    rw [split]
    constructor
    · show ((service.recordOne s).1.recordAll metrics).1.usageHistory = _
      rw [more, one, map_append, append_assoc]
      split <;> rfl
    · intro s' mem
      rcases mem_append.mp mem with now | later
      · split at now
        · rename_i status
          rw [mem_singleton.mp now]
          exact fine status
        · cases now
      · exact others s' later

theorem step_history (step : Step) :
    (step.perform service).usageHistory = service.usageHistory ++ (step.accepted service).map Submission.entry ∧
      ∀ s ∈ step.accepted service, s.valid = true := by
  have batch (metrics : List Submission) :
      ((service.recordUsageBatch metrics).toOption.elim service Prod.fst).usageHistory =
        service.usageHistory ++
          (acceptedIn service (if MAX_BATCH_SIZE < metrics.length then [] else metrics)).map Submission.entry := by
    unfold MeteringService.recordUsageBatch
    split
    · exact (append_nil _).symm
    · exact (recordAll_history metrics).1
  cases step with
  | resetPeriod userId metricType => simp [Step.perform, Step.accepted, MeteringService.resetPeriod]
  | call c =>
    refine ⟨?_, (recordAll_history c.submitted).2⟩
    cases c with
    | recordUsage metric => exact batch [metric]
    | recordUsageBatch metrics => exact batch metrics
    | setLimit userId metricType limit =>
      simp [Step.perform, Step.accepted, perform, MeteringService.setLimit, Call.submitted, acceptedIn]

theorem steps_history (steps : List Step) :
    (steps.foldl Step.perform service).usageHistory = service.usageHistory ++ (acceptedOver service steps).map Submission.entry ∧
      ∀ s ∈ acceptedOver service steps, s.valid = true := by
  induction steps generalizing service with
  | nil => simp [acceptedOver]
  | cons step steps ih =>
    obtain ⟨one, fine⟩ := @step_history service step
    obtain ⟨more, others⟩ := @ih (step.perform service)
    rw [foldl_cons, more, one, acceptedOver, map_append, append_assoc]
    refine ⟨rfl, fun s mem => ?_⟩
    exact (mem_append.mp mem).elim (fine s) (others s)

theorem usageIn_append (subscriptionId : String) (entries more : List UsageHistoryEntry) :
    usageIn subscriptionId (entries ++ more) = usageIn subscriptionId entries + usageIn subscriptionId more := by
  unfold usageIn
  rw [filter_append, map_append, sum_append]

theorem month_usage (month : Month) : usageIn subscriptionId (month.run s).usageHistory =
      usageIn subscriptionId s.usageHistory + month.recorded s subscriptionId := by
  unfold Month.run
  rw [(steps_history month.steps).1, usageIn_append]
  congr 1
  unfold usageIn Month.recorded
  rw [filter_map, map_map]
  rfl

theorem recorded_nonneg (month : Month) : 0 ≤ month.recorded service subscriptionId := by
  apply sum_nonneg
  intro value member
  obtain ⟨s, mem, rfl⟩ := mem_map.mp member
  have fine := (steps_history month.steps).2 s (mem_filter.mp mem).1
  obtain ⟨amount, found⟩ := Option.isSome_iff_exists.mp fine
  obtain ⟨given, pos⟩ := Option.filter_eq_some_iff.mp found
  rw [given, Option.getD_some]
  exact of_decide_eq_true pos

end Sums

theorem billed_eq (calendar : Calendar) (subscriptionId : String) (s : MeteringService) (months : List Month) :
    billed calendar subscriptionId s months =
      Running.totals (usageIn subscriptionId s.usageHistory) (recorded subscriptionId s months) := by
  induction months generalizing s with
  | nil => rfl
  | cons month rest ih =>
    rw [billed, recorded, Running.totals, ← month_usage, ← ih]
    dsimp only [MeteringService.calculateUsageBilling]
    rw [usage_eq]

/-- Usage is billed in one month only exactly where none is recorded before the last month. -/
theorem billed_once_iff (calendar : Calendar) (subscriptionId : String) (months : List Month) :
    BilledOnce calendar subscriptionId months ↔ ∀ r ∈ (recorded subscriptionId .new months).dropLast, r = 0 := by
  have nonneg (service : MeteringService) (months : List Month) : ∀ r ∈ recorded subscriptionId service months, 0 ≤ r := by
    induction months generalizing service with
    | nil => simp [recorded]
    | cons month rest ih =>
      rw [recorded, forall_mem_cons]
      exact ⟨recorded_nonneg month, ih _⟩
  have totals : billed calendar subscriptionId .new months = Running.totals 0 (recorded subscriptionId .new months) :=
    billed_eq calendar subscriptionId .new months
  constructor
  · intro once
    rw [← Running.sum_totals_iff (nonneg _ _), ← totals]
    exact once.total
  · intro zero
    have same := totals.trans (Running.totals_eq zero)
    exact ⟨congrArg List.sum same, same⟩

section Sample

def monthOf (events : List Submission) (now : ℤ) : Month := ⟨events.map fun s => .call (.recordUsage s), 2, "USD", now⟩

theorem not_billed_once :
    ¬∃ calendar, BilledOnce calendar "alice" [monthOf [callsAt 1000 5] 2000, monthOf [callsAt 2678400000 7] 2678500000] := by
  rintro ⟨calendar, total, -⟩
  rw [billed_eq] at total
  revert total
  decide +kernel

end Sample

end SubTrackr.Usage
