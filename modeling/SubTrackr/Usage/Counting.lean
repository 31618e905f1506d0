import SubTrackr.Lib.Store
import Mathlib.Data.Rat.Floor
import Mathlib.Data.String.Basic
import SubTrackr.Lib.Dedup

namespace SubTrackr.Usage

open List Lib

inductive MetricType
  | api
  | compute
  | storage
  deriving DecidableEq

def MetricType.text : MetricType → String
  | .api => "api"
  | .compute => "compute"
  | .storage => "storage"

/-- An amount that is not finite is `none`. -/
structure UsageMetric where
  userId : String
  metricType : MetricType
  amount : Option ℚ
  timestamp : ℤ
  idempotencyKey : Option String

structure StoredUsageEvent where
  idempotencyKey : String
  amount : ℚ
  (eventTime receivedAt : ℤ)
  clockSkewDetected : Bool

structure UsageHistoryEntry where
  subscriptionId : String
  metric : MetricType
  value : ℚ
  timestamp : ℤ

structure UsageAlert where
  subscriptionId : String
  metric : MetricType
  (threshold currentUsage : ℚ)
  message : String
  createdAt : ℤ

inductive UsageIngestStatus
  | accepted
  | duplicate
  | rejected
  deriving DecidableEq

structure UsageIngestResult where
  idempotencyKey : String
  status : UsageIngestStatus
  reason : Option String
  clockSkewDetected : Option Bool

inductive UsageAlertLevel
  | soft
  | hard
  deriving DecidableEq

structure UsageThresholdAlert where
  level : UsageAlertLevel
  metric : MetricType
  subscriptionId : String
  (usage limit ratio : ℚ)

structure MeteringService where
  events : Store String (List StoredUsageEvent)
  seenIdempotencyKeys : Store String UsageIngestResult
  limits : Store String ℚ
  usageHistory : List UsageHistoryEntry
  alerts : List UsageAlert

def MeteringService.new : MeteringService := ⟨fun _ => none, fun _ => none, fun _ => none, [], []⟩

def MAX_CLOCK_SKEW_MS : ℤ := 5 * 60 * 1000

def SOFT_THRESHOLD_RATIO : ℚ := 8 / 10

def HARD_THRESHOLD_RATIO : ℚ := 1

def MAX_BATCH_SIZE : ℕ := 500

def meterKey (userId : String) (metricType : MetricType) : String := userId ++ "::" ++ metricType.text

inductive AggregationWindow
  | hourly
  | daily
  | monthly

def AggregationWindow.ms : AggregationWindow → ℤ
  | .hourly => 60 * 60 * 1000
  | .daily => 24 * 60 * 60 * 1000
  | .monthly => 30 * 24 * 60 * 60 * 1000

inductive AggregationFunction
  | sum
  | max
  | average
  | percentile95
  | percentile99

def percentile (sortedValues : List ℚ) (p : ℚ) : ℚ :=
  if sortedValues.isEmpty then 0
  else
    let rank := p / 100 * (sortedValues.length - 1)
    let lower := ⌊rank⌋
    let upper := ⌈rank⌉
    if lower = upper then sortedValues.getD lower.toNat 0
    else
      let weight := rank - lower
      sortedValues.getD lower.toNat 0 * (1 - weight) + sortedValues.getD upper.toNat 0 * weight

def aggregateEvents (events : List StoredUsageEvent) (window : AggregationWindow) (fn : AggregationFunction) (now : ℤ) : ℚ :=
  let cutoff := now - window.ms
  let values := (events.filter fun e => cutoff ≤ e.eventTime && e.eventTime ≤ now).map StoredUsageEvent.amount
  match values with
  | [] => 0
  | first :: rest =>
    match fn with
    | .sum => values.sum
    | .max => rest.foldl max first
    | .average => values.sum / values.length
    | .percentile95 => percentile (values.insertionSort (· ≤ ·)) 95
    | .percentile99 => percentile (values.insertionSort (· ≤ ·)) 99

namespace MeteringService

def setLimit (service : MeteringService) (userId : String) (metricType : MetricType) (limit : ℚ) : MeteringService :=
  { service with limits := put service.limits (meterKey userId metricType) limit }

def eventsOf (service : MeteringService) (userId : String) (metricType : MetricType) : List StoredUsageEvent :=
  (service.events (meterKey userId metricType)).getD []

def aggregate (service : MeteringService) (userId : String) (metricType : MetricType) (window : AggregationWindow)
    (fn : AggregationFunction) (now : ℤ) : ℚ :=
  aggregateEvents (service.eventsOf userId metricType) window fn now

def getCurrentPeriodConsumption (service : MeteringService) (userId : String) (metricType : MetricType) (now : ℤ) : ℚ :=
  service.aggregate userId metricType .monthly .sum now

def alert (service : MeteringService) (userId : String) (metricType : MetricType) (limit usage : ℚ) (now : ℤ) : MeteringService :=
  { service with
    alerts := service.alerts ++
      [{ subscriptionId := userId
         metric := metricType
         threshold := limit
         currentUsage := usage
         message := "Usage for " ++ metricType.text ++ " has reached " ++ toString ⌊usage / limit * 100 + 1 / 2⌋ ++ "% of limit"
         createdAt := now }] }

def checkMetrics (service : MeteringService) (userId : String) (now : ℤ) :
    List MetricType → MeteringService × Option UsageThresholdAlert
  | [] => (service, none)
  | mt :: rest =>
    match (service.limits (meterKey userId mt)).filter (0 < ·) with
    | none => checkMetrics service userId now rest
    | some limit =>
      let usage := service.getCurrentPeriodConsumption userId mt now
      let ratio := usage / limit
      if HARD_THRESHOLD_RATIO ≤ ratio then
        (service.alert userId mt limit usage now, some ⟨.hard, mt, userId, usage, limit, ratio⟩)
      else if SOFT_THRESHOLD_RATIO ≤ ratio then
        (service.alert userId mt limit usage now, some ⟨.soft, mt, userId, usage, limit, ratio⟩)
      else checkMetrics service userId now rest

def checkThresholds (service : MeteringService) (userId : String) (metricType : Option MetricType) (now : ℤ) :
    MeteringService × Option UsageThresholdAlert :=
  service.checkMetrics userId now (match metricType with | some mt => [mt] | none => [.api, .compute, .storage])

end MeteringService

structure Submission where
  metric : UsageMetric
  (receivedAt checkedAt : ℤ)

def UsageMetric.key (metric : UsageMetric) : String :=
  metric.idempotencyKey.getD ("auto-" ++ meterKey metric.userId metric.metricType ++ "-" ++ toString metric.timestamp)

def Submission.stored (s : Submission) (amount : ℚ) : StoredUsageEvent where
  idempotencyKey := s.metric.key
  amount
  eventTime := if s.receivedAt < s.metric.timestamp then s.receivedAt else s.metric.timestamp
  receivedAt := s.receivedAt
  clockSkewDetected := MAX_CLOCK_SKEW_MS < |s.receivedAt - s.metric.timestamp|

namespace MeteringService

def store (service : MeteringService) (s : Submission) (amount : ℚ) : MeteringService :=
  let key := meterKey s.metric.userId s.metric.metricType
  { service with
    events := put service.events key ((service.events key).getD [] ++ [s.stored amount])
    usageHistory := service.usageHistory ++ [⟨s.metric.userId, s.metric.metricType, amount, s.metric.timestamp⟩]
    seenIdempotencyKeys := put service.seenIdempotencyKeys s.metric.key
      ⟨s.metric.key, .accepted, none, some (s.stored amount).clockSkewDetected⟩ }

def recordOne (service : MeteringService) (s : Submission) : MeteringService × UsageIngestResult :=
  match service.seenIdempotencyKeys s.metric.key with
  | some cached => (service, { cached with status := .duplicate })
  | none =>
    match s.metric.amount.filter (0 ≤ ·) with
    | none => (service, ⟨s.metric.key, .rejected, some "amount must be a non-negative finite number", none⟩)
    | some amount =>
      (((service.store s amount).checkThresholds s.metric.userId s.metric.metricType s.checkedAt).1,
        ⟨s.metric.key, .accepted, none, some (s.stored amount).clockSkewDetected⟩)

def recordAll (service : MeteringService) : List Submission → MeteringService × List UsageIngestResult
  | [] => (service, [])
  | s :: rest =>
    let (next, result) := service.recordOne s
    let (last, results) := next.recordAll rest
    (last, result :: results)

def recordUsageBatch (service : MeteringService) (metrics : List Submission) :
    Except String (MeteringService × List UsageIngestResult) :=
  if MAX_BATCH_SIZE < metrics.length then
    .error ("Batch size " ++ toString metrics.length ++ " exceeds maximum of " ++ toString MAX_BATCH_SIZE)
  else .ok (service.recordAll metrics)

def recordUsage (service : MeteringService) (metric : Submission) : Except String (MeteringService × List UsageIngestResult) :=
  service.recordUsageBatch [metric]

def resetPeriod (service : MeteringService) (userId : String) (metricType : MetricType) : MeteringService :=
  { service with events := remove service.events (meterKey userId metricType) }

end MeteringService

theorem text_suffix {m m' : MetricType} {p p' : List Char} (same : p ++ m.text.toList = p' ++ m'.text.toList) :
    m = m' ∧ p = p' := by
  have reversed := congrArg List.reverse same
  rw [reverse_append, reverse_append] at reversed
  cases m <;> cases m' <;> simp [MetricType.text] at reversed ⊢ <;> exact reversed

theorem meterKey_injective {u u' : String} {m m' : MetricType} : meterKey u m = meterKey u' m' ↔ u = u' ∧ m = m' := by
  constructor
  · intro same
    have chars := congrArg String.toList same
    unfold meterKey at chars
    rw [String.toList_append, String.toList_append, String.toList_append, String.toList_append] at chars
    obtain ⟨metric, users⟩ := text_suffix chars
    exact ⟨String.toList_injective (append_cancel_right users), metric⟩
  · rintro ⟨rfl, rfl⟩
    rfl

namespace Submission

variable (s : Submission)

def key : String := s.metric.key

def meter : String × MetricType := (s.metric.userId, s.metric.metricType)

def valid : Bool := (s.metric.amount.filter (0 ≤ ·)).isSome

def event : StoredUsageEvent := s.stored (s.metric.amount.getD 0)

def entry : UsageHistoryEntry := ⟨s.metric.userId, s.metric.metricType, s.metric.amount.getD 0, s.metric.timestamp⟩

/-- The event is sent again with the key it had. Where the key is derived, the event itself is the same. -/
def Replays (earlier : Submission) : Prop :=
  s.meter = earlier.meter ∧ s.key = earlier.key ∧
    (s.metric.idempotencyKey = none → s.metric.amount = earlier.metric.amount ∧ s.metric.timestamp = earlier.metric.timestamp)

instance (earlier : Submission) : Decidable (s.Replays earlier) := by
  unfold Replays
  infer_instance

end Submission

def valid (subs : List Submission) : List Submission := subs.filter Submission.valid

inductive Call
  | recordUsage (metric : Submission)
  | recordUsageBatch (metrics : List Submission)
  | setLimit (userId : String) (metricType : MetricType) (limit : ℚ)

def perform (service : MeteringService) : Call → MeteringService
  | .recordUsage metric => (service.recordUsage metric).toOption.elim service Prod.fst
  | .recordUsageBatch metrics => (service.recordUsageBatch metrics).toOption.elim service Prod.fst
  | .setLimit userId metricType limit => service.setLimit userId metricType limit

def run (calls : List Call) : MeteringService := calls.foldl perform .new

def Call.submitted : Call → List Submission
  | .recordUsage metric => [metric]
  | .recordUsageBatch metrics => if MAX_BATCH_SIZE < metrics.length then [] else metrics
  | .setLimit _ _ _ => []

def submitted (calls : List Call) : List Submission := calls.flatMap Call.submitted

def ingest (service : MeteringService) (subs : List Submission) : MeteringService := (service.recordAll subs).1

structure CountsOnce (service : MeteringService) (subs : List Submission) : Prop where
  replayed : ∀ s ∈ valid subs, ∀ s' : Submission, s'.key = s.key →
    (service.recordOne s').1 = service ∧ (service.recordOne s').2.status = .duplicate
  counted : ∀ u m, service.eventsOf u m =
    (Dedup.genuine Submission.Replays ((valid subs).filter fun s => s.meter = (u, m))).map Submission.event
  history : ∀ u m, (service.usageHistory.filter fun e => e.subscriptionId = u ∧ e.metric = m) =
    (Dedup.genuine Submission.Replays ((valid subs).filter fun s => s.meter = (u, m))).map Submission.entry
  apart : ∀ u m window fn now, service.aggregate u m window fn now =
    (ingest .new (subs.filter fun s => s.metric.userId = u)).aggregate u m window fn now

structure Reflects (service : MeteringService) (subs : List Submission) : Prop where
  seen : ∀ k, (service.seenIdempotencyKeys k).isSome ↔ k ∈ (valid subs).map Submission.key
  events : ∀ u m, service.eventsOf u m =
    ((Dedup.kept Submission.key (valid subs)).filter fun s => s.meter = (u, m)).map Submission.event
  history : service.usageHistory = (Dedup.kept Submission.key (valid subs)).map Submission.entry

section Steps

variable {service : MeteringService} {subs : List Submission} {s : Submission}

theorem checkMetrics_frame (userId : String) (now : ℤ) (types : List MetricType) :
    (service.checkMetrics userId now types).1.events = service.events ∧
      (service.checkMetrics userId now types).1.seenIdempotencyKeys = service.seenIdempotencyKeys ∧
      (service.checkMetrics userId now types).1.usageHistory = service.usageHistory := by
  induction types with
  | nil => exact ⟨rfl, rfl, rfl⟩
  | cons mt types ih =>
    unfold MeteringService.checkMetrics
    split
    · exact ih
    · dsimp only
      split
      · exact ⟨rfl, rfl, rfl⟩
      · split
        · exact ⟨rfl, rfl, rfl⟩
        · exact ih

theorem Reflects.congr {next : MeteringService} (reflects : Reflects service subs) (events : next.events = service.events)
    (seen : next.seenIdempotencyKeys = service.seenIdempotencyKeys) (history : next.usageHistory = service.usageHistory) :
    Reflects next subs := by
  refine ⟨fun k => ?_, fun u m => ?_, ?_⟩
  · rw [seen]
    exact reflects.seen k
  · unfold MeteringService.eventsOf
    rw [events]
    exact reflects.events u m
  · rw [history]
    exact reflects.history

theorem valid_concat : valid (subs ++ [s]) = valid subs ++ if s.valid then [s] else [] := by
  unfold valid
  rw [filter_append, filter_singleton]
  cases s.valid <;> rfl

theorem recordOne_seen (known : (service.seenIdempotencyKeys s.key).isSome) :
    (service.recordOne s).1 = service ∧ (service.recordOne s).2.status = .duplicate := by
  obtain ⟨cached, found⟩ := Option.isSome_iff_exists.mp known
  unfold Submission.key at found
  unfold MeteringService.recordOne
  rw [found]
  exact ⟨rfl, rfl⟩

theorem store_reflects (reflects : Reflects service subs) (fine : s.valid = true)
    (new : s.key ∉ (Dedup.kept Submission.key (valid subs)).map Submission.key) :
    Reflects (service.store s (s.metric.amount.getD 0)) (subs ++ [s]) := by
  have kept : Dedup.kept Submission.key (valid (subs ++ [s])) = Dedup.kept Submission.key (valid subs) ++ [s] := by
    rw [valid_concat, if_pos fine, Dedup.kept_concat, if_neg new]
  refine ⟨fun k => ?_, fun u m => ?_, ?_⟩
  · rw [valid_concat, if_pos fine, map_append, mem_append, ← reflects.seen k, map_singleton, mem_singleton]
    unfold MeteringService.store Submission.key
    dsimp only
    rw [put_apply]
    split
    · simp [*]
    · simp [*]
  · rw [kept, filter_append, map_append, ← reflects.events u m, filter_singleton]
    unfold MeteringService.store MeteringService.eventsOf Submission.meter
    dsimp only
    rw [put_apply]
    by_cases same : s.metric.userId = u ∧ s.metric.metricType = m
    · obtain ⟨rfl, rfl⟩ := same
      rw [if_pos rfl]
      simp only [decide_true, cond_true]
      rfl
    · rw [if_neg fun eq => same ((meterKey_injective.mp eq).imp Eq.symm Eq.symm)]
      simp [same]
  · rw [kept, map_append, ← reflects.history]
    rfl

theorem recordOne_reflects (reflects : Reflects service subs) (s : Submission) :
    Reflects (service.recordOne s).1 (subs ++ [s]) := by
  have keys := @Dedup.mem_keys_kept _ _ _ Submission.key (valid subs) s.key
  by_cases known : (service.seenIdempotencyKeys s.key).isSome
  · rw [(recordOne_seen known).1]
    have seen := (reflects.seen s.key).mp known
    have kept : Dedup.kept Submission.key (valid (subs ++ [s])) = Dedup.kept Submission.key (valid subs) := by
      rw [valid_concat]
      split
      · rw [Dedup.kept_concat, if_pos (keys.mpr seen)]
      · rw [append_nil]
    refine ⟨fun k => ?_, fun u m => ?_, ?_⟩
    · have same := @Dedup.mem_keys_kept _ _ _ Submission.key (valid (subs ++ [s])) k
      rw [kept, Dedup.mem_keys_kept] at same
      rw [reflects.seen, same]
    · rw [kept]
      exact reflects.events u m
    · rw [kept]
      exact reflects.history
  · have absent : service.seenIdempotencyKeys s.metric.key = none := Option.not_isSome_iff_eq_none.mp known
    unfold MeteringService.recordOne
    rw [absent]
    cases amount : s.metric.amount.filter (0 ≤ ·) with
    | none =>
      have invalid : s.valid = false := by
        unfold Submission.valid
        rw [amount]
        rfl
      have same : valid (subs ++ [s]) = valid subs := by
        rw [valid_concat, invalid]
        exact append_nil _
      refine ⟨?_, ?_, ?_⟩
      · rw [same]
        exact reflects.seen
      · rw [same]
        exact reflects.events
      · rw [same]
        exact reflects.history
    | some a =>
      have fine : s.valid = true := by
        unfold Submission.valid
        rw [amount]
        rfl
      obtain ⟨given, -⟩ := Option.filter_eq_some_iff.mp amount
      have held := store_reflects reflects fine fun seen => known ((reflects.seen _).mpr (keys.mp seen))
      rw [given] at held
      obtain ⟨events, seen, history⟩ :=
        @checkMetrics_frame (service.store s a) s.metric.userId s.checkedAt [s.metric.metricType]
      exact held.congr events seen history

theorem new_reflects : Reflects .new [] := by
  refine ⟨fun k => ?_, fun u m => rfl, rfl⟩
  simp [MeteringService.new, valid]

section

variable (reflects : Reflects service subs)

include reflects

theorem ingest_reflects (more : List Submission) :
    Reflects (ingest service more) (subs ++ more) := by
  induction more generalizing service subs with
  | nil =>
    rw [append_nil]
    exact reflects
  | cons s more ih =>
    have next := ih (recordOne_reflects reflects s)
    rw [append_assoc] at next
    exact next

theorem batch_reflects (metrics : List Submission) :
    Reflects ((service.recordUsageBatch metrics).toOption.elim service Prod.fst)
      (subs ++ if MAX_BATCH_SIZE < metrics.length then [] else metrics) := by
  unfold MeteringService.recordUsageBatch
  split
  · rw [append_nil]
    exact reflects
  · exact ingest_reflects reflects metrics

theorem perform_reflects (call : Call) :
    Reflects (perform service call) (subs ++ call.submitted) := by
  cases call with
  | recordUsage metric => exact batch_reflects reflects [metric]
  | recordUsageBatch metrics => exact batch_reflects reflects metrics
  | setLimit userId metricType limit =>
    unfold Call.submitted
    rw [append_nil]
    exact reflects.congr rfl rfl rfl

end

theorem run_reflects (calls : List Call) : Reflects (run calls) (submitted calls) := by
  have step (calls : List Call) (service : MeteringService) (subs : List Submission) (reflects : Reflects service subs) :
      Reflects (calls.foldl perform service) (subs ++ calls.flatMap Call.submitted) := by
    induction calls generalizing service subs with
    | nil =>
      rw [flatMap_nil, append_nil]
      exact reflects
    | cons call calls ih =>
      rw [foldl_cons, flatMap_cons, ← append_assoc]
      exact ih _ _ (perform_reflects reflects call)
  exact step calls .new [] new_reflects

end Steps

theorem replays_refl (s : Submission) : s.Replays s := ⟨rfl, rfl, fun _ => ⟨rfl, rfl⟩⟩

theorem replays_congr {x y y' : Submission} (fine : y.valid = true) (fine' : y'.valid = true)
    (same : (y.event, y.entry) = (y'.event, y'.entry)) (replay : x.Replays y) : x.Replays y' := by
  obtain ⟨events, entries⟩ := Prod.mk.inj same
  have key : y.key = y'.key := congrArg StoredUsageEvent.idempotencyKey events
  have user : y.metric.userId = y'.metric.userId := congrArg UsageHistoryEntry.subscriptionId entries
  have metric : y.metric.metricType = y'.metric.metricType := congrArg UsageHistoryEntry.metric entries
  have value : y.metric.amount.getD 0 = y'.metric.amount.getD 0 := congrArg UsageHistoryEntry.value entries
  have time : y.metric.timestamp = y'.metric.timestamp := congrArg UsageHistoryEntry.timestamp entries
  have amount : y.metric.amount = y'.metric.amount := by
    obtain ⟨a, some⟩ := Option.isSome_iff_exists.mp fine
    obtain ⟨a', some'⟩ := Option.isSome_iff_exists.mp fine'
    rw [(Option.filter_eq_some_iff.mp some).1, (Option.filter_eq_some_iff.mp some').1] at value ⊢
    exact congrArg Option.some value
  obtain ⟨meter, keys, again⟩ := replay
  refine ⟨meter.trans (Prod.ext user metric), keys.trans key, fun derived => ?_⟩
  rw [← amount, ← time]
  exact again derived

theorem map_pair {α β γ : Type} {f : α → β} {g : α → γ} {xs ys : List α} (first : xs.map f = ys.map f)
    (second : xs.map g = ys.map g) : xs.map (fun x => (f x, g x)) = ys.map fun x => (f x, g x) := by
  rw [← zip_map', ← zip_map', first, second]

theorem history_eq {service : MeteringService} {subs : List Submission} (reflects : Reflects service subs) (u : String)
    (m : MetricType) : (service.usageHistory.filter fun e => e.subscriptionId = u ∧ e.metric = m) =
      ((Dedup.kept Submission.key (valid subs)).filter fun s => s.meter = (u, m)).map Submission.entry := by
  rw [reflects.history, filter_map]
  congr 1
  apply filter_congr
  intro s _
  show decide (s.metric.userId = u ∧ s.metric.metricType = m) = decide ((s.metric.userId, s.metric.metricType) = (u, m))
  rw [decide_eq_decide, Prod.mk.injEq]

/-- Events are counted once, and users are kept apart, exactly where a key is only used again for a replay. -/
theorem counts_once_iff (calls : List Call) : CountsOnce (run calls) (submitted calls) ↔
      Dedup.Keyed Submission.key Submission.Replays (valid (submitted calls)) := by
  have reflects := run_reflects calls
  have sound (x y : Submission) (replay : x.Replays y) : x.meter = y.meter ∧ x.key = y.key := ⟨replay.1, replay.2.1⟩
  constructor
  · intro counts
    apply @Dedup.keyed_of_kept _ _ _ _ _ _ _ _ _ _ _ (fun s : Submission => (s.event, s.entry)) replays_refl sound
    · intro x _ y listed y' listed' same replay
      exact replays_congr (mem_filter.mp listed).2 (mem_filter.mp listed').2 same replay
    · rintro ⟨u, m⟩
      apply map_pair
      · rw [← counts.counted u m]
        exact (reflects.events u m).symm
      · rw [← counts.history u m]
        exact (history_eq reflects u m).symm
  · intro keyed
    have same (u : String) (m : MetricType) := Dedup.kept_genuine sound keyed (u, m)
    refine ⟨fun s member s' again => ?_, fun u m => ?_, fun u m => ?_, fun u m window fn now => ?_⟩
    · apply recordOne_seen
      rw [again, reflects.seen]
      exact mem_map_of_mem member
    · rw [reflects.events, same u m]
    · rw [history_eq reflects, same u m]
    · have alone := ingest_reflects new_reflects ((submitted calls).filter fun s => s.metric.userId = u)
      have owners (x y : Submission) (replay : x.Replays y) :
          decide (x.metric.userId = u) = decide (y.metric.userId = u) := by
        have user : x.metric.userId = y.metric.userId := congrArg Prod.fst replay.1
        rw [user]
      have own : valid ((submitted calls).filter fun s => s.metric.userId = u) =
          (valid (submitted calls)).filter fun s => s.metric.userId = u := filter_comm _ _ _
      have events := alone.events u m
      rw [nil_append, own, Dedup.kept_filter keyed owners, filter_filter] at events
      unfold MeteringService.aggregate
      rw [events, reflects.events]
      congr 3
      funext s
      simp [Submission.meter]
      tauto

section Sample

def callsAt (time : ℤ) (amount : ℚ) : Submission where
  metric := ⟨"alice", .api, some amount, time, none⟩
  receivedAt := time
  checkedAt := time

theorem not_counts_once : (∀ s ∈ submitted [.recordUsage (callsAt 1000 5), .recordUsage (callsAt 1000 7)], s.valid = true) ∧
    ¬CountsOnce (run [.recordUsage (callsAt 1000 5), .recordUsage (callsAt 1000 7)])
      (submitted [.recordUsage (callsAt 1000 5), .recordUsage (callsAt 1000 7)]) := by
  constructor
  · decide +kernel
  · intro counts
    have lengths := congrArg List.length (counts.counted "alice" .api)
    revert lengths
    decide +kernel

end Sample

end SubTrackr.Usage
