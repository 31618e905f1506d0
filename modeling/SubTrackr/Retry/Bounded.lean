import SubTrackr.Retry.DunningOrchestrator

namespace SubTrackr.Retry

open List Lib

inductive Call where
  | setPlanPolicy (planId : String) (policy : PolicyUpdates)
  | setGracePeriodConfig (planId : String) (config : GracePeriodConfig)
  | processFailed (env : Env) (delivered : Bool) (input : ProcessFailedInput)
  | processSuccess (env : Env) (invoiceId : String)
  | sweepExpiredGracePeriods (now : ℚ)

structure World where
  orchestrator : DunningOrchestrator
  allowed : List (String × ℚ × ℚ)
  (reported recovered : List String)

def World.new (gracePeriodConfigs : Store String GracePeriodConfig) (defaultGracePeriod : GracePeriodConfig) : World :=
  ⟨.new gracePeriodConfigs defaultGracePeriod, [], [], []⟩

def allowedRetry (w : World) (input : ProcessFailedInput) (decision : RetryDecision) : List (String × ℚ × ℚ) :=
  if decision.shouldRetry then
    [(input.invoiceId, decision.delayHours, (w.orchestrator.scheduler.getPlanPolicy input.planId).maxDelayHours)]
  else []

def perform (w : World) : Call → World
  | .setPlanPolicy planId policy => { w with orchestrator := w.orchestrator.setPlanPolicy planId policy }
  | .setGracePeriodConfig planId config => { w with orchestrator := w.orchestrator.setGracePeriodConfig planId config }
  | .processFailed env delivered input =>
    let (orchestrator, result, _) := w.orchestrator.processFailed env delivered input
    { w with orchestrator, allowed := w.allowed ++ allowedRetry w input result.decision }
  | .processSuccess env invoiceId =>
    { w with orchestrator := w.orchestrator.processSuccess env invoiceId, recovered := w.recovered ++ [invoiceId] }
  | .sweepExpiredGracePeriods now =>
    let (orchestrator, expired) := w.orchestrator.sweepExpiredGracePeriods now
    { w with orchestrator, reported := w.reported ++ expired }

structure RetryPolicy.Valid (policy : RetryPolicy) : Prop where
  maxRetries : 0 ≤ policy.maxRetries
  baseDelayHours : 0 ≤ policy.baseDelayHours
  backoffMultiplier : 0 ≤ policy.backoffMultiplier
  maxDelayHours : MIN_RETRY_DELAY_HOURS ≤ policy.maxDelayHours
  circuitBreakerThreshold : 0 ≤ policy.circuitBreakerThreshold
  circuitBreakerCooldownHours : 0 ≤ policy.circuitBreakerCooldownHours
  jitterHours : 0 ≤ policy.jitterHours

def Accepted (w : World) : Call → Prop
  | .setPlanPolicy planId policy => (w.orchestrator.scheduler.mergedPolicy planId policy).Valid
  | _ => True

def retriesOf (w : World) (invoiceId : String) : ℕ := w.allowed.countP (·.1 = invoiceId)

def Bounded (w : World) : Prop :=
  ∀ invoiceId record, w.orchestrator.scheduler.records invoiceId = some record →
    (retriesOf w invoiceId : ℚ) ≤ record.maxAttempts

structure Disciplined (w : World) : Prop where
  capped (invoiceId : String) (record : RetryRecord) :
    w.orchestrator.scheduler.records invoiceId = some record → record.maxAttempts ≤ MAX_RETRIES_CAP
  registered (invoiceId : String) : invoiceId ∈ w.allowed.map (·.1) →
    ∃ record, w.orchestrator.scheduler.records invoiceId = some record
  delays (retry : String × ℚ × ℚ) : retry ∈ w.allowed → MIN_RETRY_DELAY_HOURS ≤ retry.2.1 ∧ retry.2.1 ≤ retry.2.2
  once : w.reported.Nodup

def Fixed (w : World) (call : Call) : Prop :=
  ∀ invoiceId record, w.orchestrator.scheduler.records invoiceId = some record →
    ∃ later, (perform w call).orchestrator.scheduler.records invoiceId = some later ∧ later.maxAttempts = record.maxAttempts

def Unrecovered (w : World) (call : Call) : Prop :=
  ∀ now, call = .sweepExpiredGracePeriods now →
    ∀ invoiceId ∈ (w.orchestrator.sweepExpiredGracePeriods now).2, invoiceId ∉ w.recovered

def recordOf (w : World) (env : Env) (input : ProcessFailedInput) : RetryRecord :=
  (w.orchestrator.scheduler.records input.invoiceId).getD (w.orchestrator.scheduler.newRecord env input.invoiceId
    input.subscriptionId input.planId input.amount input.currency)

def Retryable (w : World) (env : Env) (input : ProcessFailedInput) : Prop :=
  (DECLINE_PROFILES input.declineCode).shouldRetry = true ∧ (recordOf w env input).attempts < (recordOf w env input).maxAttempts

def Tripped (w : World) (env : Env) (input : ProcessFailedInput) : Prop :=
  let policy := w.orchestrator.scheduler.getPlanPolicy input.planId
  policy.circuitBreakerThreshold ≤ (recordOf w env input).attempts ∧ env.now < (recordOf w env input).opensUntil env policy

/-- When a failed payment keeps the count: the breaker is not reset with attempts on it, the ceiling leaves room for a whole
    attempt, and an invoice that was recovered before has had its grace period, unless the breaker holds the call back. -/
def Careful (w : World) : Call → Prop
  | .processFailed env _ input => ¬ (Retryable w env input ∧ Tripped w env input) →
      (Retryable w env input →
        ((w.orchestrator.scheduler.getPlanPolicy input.planId).circuitBreakerThreshold ≤ (recordOf w env input).attempts →
          (recordOf w env input).attempts = 0) ∧
        (recordOf w env input).attempts + 1 ≤ (recordOf w env input).maxAttempts) ∧
      (input.invoiceId ∈ w.recovered → w.orchestrator.gracePeriods.get input.invoiceId ≠ none)
  | _ => True

section Delays

variable {env : Env} {profile : DeclineProfile} {record : RetryRecord} {policy : RetryPolicy}

theorem retryDelay_within (valid : policy.Valid) : MIN_RETRY_DELAY_HOURS ≤ retryDelay env profile record policy ∧
    retryDelay env profile record policy ≤ policy.maxDelayHours :=
  ⟨le_min (le_max_right _ _) valid.maxDelayHours, min_le_right _ _⟩

end Delays

section Decisions

variable {scheduler : IntelligentRetryScheduler} {env : Env} {invoiceId planId : String} {declineCode : DeclineCode}

inductive Decides (scheduler : IntelligentRetryScheduler) (env : Env) (invoiceId : String) (declineCode : DeclineCode)
    (planId : String) (record : RetryRecord) : IntelligentRetryScheduler × RetryDecision → Prop
  /-- A hard decline or no attempts left: the case is escalated. -/
  | refused (decision : RetryDecision) (refuses : decision.shouldRetry = false) (escalates : decision.escalatePriority = true)
      (why : ¬ ((DECLINE_PROFILES declineCode).shouldRetry = true ∧ (record.attempts : ℚ) < record.maxAttempts)) :
      Decides scheduler env invoiceId declineCode planId record (scheduler, decision)
  | held (decision : RetryDecision) (refuses : decision.shouldRetry = false) (quiet : decision.escalatePriority = false)
      (retryable : (DECLINE_PROFILES declineCode).shouldRetry = true ∧ (record.attempts : ℚ) < record.maxAttempts)
      (reached : (scheduler.getPlanPolicy planId).circuitBreakerThreshold ≤ record.attempts)
      (waits : env.now < record.opensUntil env (scheduler.getPlanPolicy planId)) :
      Decides scheduler env invoiceId declineCode planId record (scheduler.saveRecord { record with
        circuitBreakerUntil := some (record.opensUntil env (scheduler.getPlanPolicy planId)) }, decision)
  | allowed (decision : RetryDecision) (retries : decision.shouldRetry = true) (counted : RetryRecord)
      (retryable : (DECLINE_PROFILES declineCode).shouldRetry = true ∧ (record.attempts : ℚ) < record.maxAttempts)
      (free : ¬ ((scheduler.getPlanPolicy planId).circuitBreakerThreshold ≤ record.attempts ∧
        env.now < record.opensUntil env (scheduler.getPlanPolicy planId)))
      (same : counted.invoiceId = record.invoiceId ∧ counted.maxAttempts = record.maxAttempts)
      (attempts : counted.attempts = record.attempts ∨ counted.attempts = 0 ∧
        (scheduler.getPlanPolicy planId).circuitBreakerThreshold ≤ record.attempts)
      (delay : decision.delayHours =
        retryDelay env (DECLINE_PROFILES declineCode) counted (scheduler.getPlanPolicy planId)) :
      Decides scheduler env invoiceId declineCode planId record
        (scheduler.saveRecord (counted.retried env declineCode), decision)

theorem hardDecline_escalates (refuses : (DECLINE_PROFILES declineCode).shouldRetry = false) :
    (DECLINE_PROFILES declineCode).escalatePriority = true := by
  cases declineCode <;> simp [DECLINE_PROFILES] at refuses ⊢

theorem decideRetry_decides {record : RetryRecord} (held : scheduler.records invoiceId = some record) :
    Decides scheduler env invoiceId declineCode planId record
      (scheduler.decideRetry env invoiceId declineCode planId) := by
  simp only [IntelligentRetryScheduler.decideRetry, held]
  cases retries : (DECLINE_PROFILES declineCode).shouldRetry with
  | false => exact .refused _ rfl (hardDecline_escalates retries) (by simp [retries])
  | true =>
    simp only [Bool.not_true, Bool.false_eq_true, if_false]
    split
    · rename_i exhausted
      exact .refused _ rfl rfl fun fine => absurd fine.2 (not_lt.mpr exhausted)
    · rename_i left
      have retryable := And.intro retries (not_le.mp left)
      unfold getCircuitBreakerStatus
      by_cases below : (record.attempts : ℚ) < (scheduler.getPlanPolicy planId).circuitBreakerThreshold
      · simp only [below, if_true, Bool.false_eq_true, if_false]
        exact .allowed _ rfl record retryable (fun trips => absurd trips.1 (not_le.mpr below)) ⟨rfl, rfl⟩ (.inl rfl) rfl
      · have reached := not_lt.mp below
        by_cases waits : env.now < record.opensUntil env (scheduler.getPlanPolicy planId)
        · simp only [below, waits, if_true, if_false]
          exact .held _ rfl rfl retryable reached waits
        · simp only [below, waits, if_false, Bool.false_eq_true]
          exact .allowed _ rfl { record with circuitBreakerUntil := none, attempts := 0 } retryable
            (fun trips => waits trips.2) ⟨rfl, rfl⟩ (.inr ⟨rfl, reached⟩) rfl

end Decisions

section Sweeps

variable {now : ℚ}

def sweepRounds (now : ℚ) (entries : List (String × GracePeriod)) (swept : InsertionMap String GracePeriod × List String) :
    InsertionMap String GracePeriod × List String :=
  entries.foldl (fun (gracePeriods, expired) (id, gp) =>
    if gp.due now then (gracePeriods.set id { gp with status := .expired }, expired ++ [id])
    else (gracePeriods, expired)) swept

theorem sweepRounds_reports (entries : List (String × GracePeriod))
    (swept : InsertionMap String GracePeriod × List String) :
    (sweepRounds now entries swept).2 = swept.2 ++ (entries.filter fun e => e.2.due now).map (·.1) := by
  induction entries generalizing swept with
  | nil => simp [sweepRounds]
  | cons e entries ih =>
    rw [show sweepRounds now (e :: entries) swept = sweepRounds now entries _ from rfl, ih]
    cases due : e.2.due now <;> simp [due]

theorem sweepRounds_get {entries : List (String × GracePeriod)} (nodup : (entries.map Prod.fst).Nodup)
    (swept : InsertionMap String GracePeriod × List String) (id : String) (gp : GracePeriod) :
    (sweepRounds now entries swept).1.get id = some gp ↔
      (∃ old, (id, old) ∈ entries ∧ old.due now = true ∧ gp = { old with status := .expired }) ∨
        (∀ old, (id, old) ∈ entries → old.due now = false) ∧ swept.1.get id = some gp := by
  induction entries generalizing swept with
  | nil => simp [sweepRounds]
  | cons e entries ih =>
    obtain ⟨absent, nodup⟩ := nodup_cons.mp nodup
    rw [show sweepRounds now (e :: entries) swept = sweepRounds now entries _ from rfl, ih nodup]
    have elsewhere : ∀ old, (e.1, old) ∉ entries := fun old mem => absent (mem_map.mpr ⟨_, mem, rfl⟩)
    obtain ⟨key, first⟩ := e
    cases due : first.due now with
    | false | true =>
      simp only [due, Bool.false_eq_true, if_false, mem_cons, Prod.mk.injEq, if_true, InsertionMap.get_set_eq_some]
      grind

theorem sweep_reports (orchestrator : DunningOrchestrator) : (orchestrator.sweepExpiredGracePeriods now).2 =
    (orchestrator.gracePeriods.entries.filter fun e => e.2.due now).map (·.1) :=
  sweepRounds_reports orchestrator.gracePeriods.entries (orchestrator.gracePeriods, [])

theorem mem_sweep {orchestrator : DunningOrchestrator} {id : String} :
    id ∈ (orchestrator.sweepExpiredGracePeriods now).2 ↔
      ∃ gp, orchestrator.gracePeriods.get id = some gp ∧ gp.due now = true := by
  rw [sweep_reports, mem_map]
  simp [InsertionMap.get_eq_some]

theorem nodup_sweep (orchestrator : DunningOrchestrator) : (orchestrator.sweepExpiredGracePeriods now).2.Nodup := by
  rw [sweep_reports]
  exact orchestrator.gracePeriods.distinct.sublist (filter_sublist.map _)

theorem sweep_get {orchestrator : DunningOrchestrator} {id : String} {gp : GracePeriod} :
    (orchestrator.sweepExpiredGracePeriods now).1.gracePeriods.get id = some gp ↔
      ∃ old, orchestrator.gracePeriods.get id = some old ∧
        gp = if old.due now then { old with status := .expired } else old := by
  refine (sweepRounds_get orchestrator.gracePeriods.distinct (orchestrator.gracePeriods, []) id gp).trans ?_
  simp only [← InsertionMap.get_eq_some]
  grind

end Sweeps

section GracePeriods

variable {orchestrator : DunningOrchestrator} {env : Env} {invoiceId subscriptionId planId : String}
  {decision : RetryDecision}

theorem upsert_scheduler : (orchestrator.upsertGracePeriod env invoiceId subscriptionId planId decision).1.scheduler =
    orchestrator.scheduler := by
  unfold DunningOrchestrator.upsertGracePeriod
  split
  · rfl
  · split <;> rfl

theorem upsert_get {id : String} {gp : GracePeriod}
    (found : (orchestrator.upsertGracePeriod env invoiceId subscriptionId planId decision).1.gracePeriods.get id = some gp) :
    orchestrator.gracePeriods.get id = some gp ∨ id = invoiceId ∧ orchestrator.gracePeriods.get id = none ∧
      (decision.shouldRetry = true ∨ decision.escalatePriority = true) := by
  unfold DunningOrchestrator.upsertGracePeriod at found
  split at found
  · exact .inl found
  · rename_i loud
    cases known : orchestrator.gracePeriods.get invoiceId with
    | some existing =>
      simp only [known] at found
      exact .inl found
    | none =>
      simp only [known, InsertionMap.get_set_eq_some] at found
      obtain ⟨rfl, _⟩ | ⟨_, found⟩ := found
      · refine .inr ⟨rfl, known, ?_⟩
        simpa [Classical.or_iff_not_imp_left] using loud
      · exact .inl found

theorem upsert_keeps {id : String} {gp : GracePeriod} (known : orchestrator.gracePeriods.get id = some gp) :
    (orchestrator.upsertGracePeriod env invoiceId subscriptionId planId decision).1.gracePeriods.get id = some gp := by
  unfold DunningOrchestrator.upsertGracePeriod
  split
  · exact known
  · cases own : orchestrator.gracePeriods.get invoiceId with
    | some existing => exact known
    | none =>
      have other : id ≠ invoiceId := by
        rintro rfl
        simp [own] at known
      exact (InsertionMap.get_set_of_ne _ _ other).trans known

end GracePeriods

section Schedulers

variable {scheduler : IntelligentRetryScheduler} {w : World} {env : Env} {delivered : Bool} {input : ProcessFailedInput}

theorem registered_record : (w.orchestrator.registered env input).records input.invoiceId = some (recordOf w env input) := by
  unfold DunningOrchestrator.registered recordOf
  cases held : w.orchestrator.scheduler.records input.invoiceId with
  | some record => exact held
  | none => exact put_self ..

theorem registered_records {id : String} (other : id ≠ input.invoiceId) :
    (w.orchestrator.registered env input).records id = w.orchestrator.scheduler.records id := by
  unfold DunningOrchestrator.registered
  split
  · rfl
  · exact put_of_ne _ _ other

theorem registered_policies : (w.orchestrator.registered env input).policies = w.orchestrator.scheduler.policies := by
  unfold DunningOrchestrator.registered
  split <;> rfl

theorem registered_policy (planId : String) :
    (w.orchestrator.registered env input).getPlanPolicy planId = w.orchestrator.scheduler.getPlanPolicy planId := by
  simp only [IntelligentRetryScheduler.getPlanPolicy, registered_policies]

theorem recordOf_invoiceId (named : ∀ id record, w.orchestrator.scheduler.records id = some record → record.invoiceId = id) :
    (recordOf w env input).invoiceId = input.invoiceId := by
  unfold recordOf
  cases held : w.orchestrator.scheduler.records input.invoiceId with
  | some record => exact named _ record held
  | none => rfl

def decisionOf (w : World) (env : Env) (input : ProcessFailedInput) : IntelligentRetryScheduler × RetryDecision :=
  (w.orchestrator.registered env input).decideRetry env input.invoiceId input.declineCode input.planId

theorem decisionOf_decides (w : World) (env : Env) (input : ProcessFailedInput) :
    Decides (w.orchestrator.registered env input) env input.invoiceId input.declineCode input.planId (recordOf w env input)
      (decisionOf w env input) := decideRetry_decides registered_record

theorem perform_processFailed : perform w (.processFailed env delivered input) =
    { w with
      orchestrator := ({ w.orchestrator with scheduler := (decisionOf w env input).1 }.upsertGracePeriod env input.invoiceId
        input.subscriptionId input.planId (decisionOf w env input).2).1
      allowed := w.allowed ++ allowedRetry w input (decisionOf w env input).2 } := rfl

structure Decided (w : World) (env : Env) (input : ProcessFailedInput) (later : RetryRecord) : Prop where
  stored : (decisionOf w env input).1.records input.invoiceId = some later
  others (id : String) : id ≠ input.invoiceId → (decisionOf w env input).1.records id = w.orchestrator.scheduler.records id
  policies : (decisionOf w env input).1.policies = w.orchestrator.scheduler.policies
  invoiceId : later.invoiceId = input.invoiceId
  maxAttempts : later.maxAttempts = (recordOf w env input).maxAttempts
  refused : (decisionOf w env input).2.shouldRetry = false → later.attempts = (recordOf w env input).attempts
  allowed : (decisionOf w env input).2.shouldRetry = true → Retryable w env input ∧
    (later.attempts = (recordOf w env input).attempts + 1 ∨ later.attempts = 1 ∧
      (w.orchestrator.scheduler.getPlanPolicy input.planId).circuitBreakerThreshold ≤ (recordOf w env input).attempts)
  loud : (decisionOf w env input).2.shouldRetry = true ∨ (decisionOf w env input).2.escalatePriority = true →
    ¬ (Retryable w env input ∧ Tripped w env input)
  delay : (decisionOf w env input).2.shouldRetry = true → ∃ record, (decisionOf w env input).2.delayHours =
    retryDelay env (DECLINE_PROFILES input.declineCode) record (w.orchestrator.scheduler.getPlanPolicy input.planId)

theorem saveRecord_stored {record : RetryRecord} {id : String} (named : record.invoiceId = id) :
    (scheduler.saveRecord record).records id = some record := by
  rw [← named]
  exact put_self ..

theorem saveRecord_others {record : RetryRecord} {id other : String} (named : record.invoiceId = id) (apart : other ≠ id) :
    (scheduler.saveRecord record).records other = scheduler.records other :=
  put_of_ne _ _ (named ▸ apart)

theorem decided (w : World) (env : Env) (input : ProcessFailedInput) (named : ∀ id record, w.orchestrator.scheduler.records id = some record → record.invoiceId = id) :
    ∃ later, Decided w env input later := by
  have own : (recordOf w env input).invoiceId = input.invoiceId := recordOf_invoiceId named
  have decides := decisionOf_decides w env input
  generalize made : decisionOf w env input = decision at decides
  cases decides with
  | refused d refuses escalates why =>
    refine ⟨recordOf w env input, ?_⟩
    constructor
    case stored => rw [made]; exact registered_record
    case others => intro id apart; rw [made]; exact registered_records apart
    case policies => rw [made]; exact registered_policies
    case invoiceId => exact own
    case maxAttempts => rfl
    case refused => intro _; rfl
    case allowed => intro retries; rw [made] at retries; simp [refuses] at retries
    case loud => exact fun _ holds => why holds.1
    case delay => intro retries; rw [made] at retries; simp [refuses] at retries
  | held d refuses quiet retryable reached waits =>
    let tripped : RetryRecord := { recordOf w env input with circuitBreakerUntil := some ((recordOf w env input).opensUntil
      env ((w.orchestrator.registered env input).getPlanPolicy input.planId)) }
    have named' : tripped.invoiceId = input.invoiceId := own
    refine ⟨tripped, ?_⟩
    constructor
    case stored => rw [made]; exact saveRecord_stored named'
    case others => intro id apart; rw [made]; exact (saveRecord_others named' apart).trans (registered_records apart)
    case policies => rw [made]; exact registered_policies
    case invoiceId => exact own
    case maxAttempts => rfl
    case refused => intro _; rfl
    case allowed => intro retries; rw [made] at retries; simp [refuses] at retries
    case loud => intro loud; rw [made] at loud; simp [refuses, quiet] at loud
    case delay => intro retries; rw [made] at retries; simp [refuses] at retries
  | allowed d retries counted retryable free same attempts delay =>
    rw [registered_policy] at free attempts delay
    have named' : (counted.retried env input.declineCode).invoiceId = input.invoiceId := same.1.trans own
    refine ⟨counted.retried env input.declineCode, ?_⟩
    constructor
    case stored => rw [made]; exact saveRecord_stored named'
    case others => intro id apart; rw [made]; exact (saveRecord_others named' apart).trans (registered_records apart)
    case policies => rw [made]; exact registered_policies
    case invoiceId => exact named'
    case maxAttempts => exact same.2
    case refused => intro refuses; rw [made] at refuses; simp [retries] at refuses
    case allowed =>
      intro _
      refine ⟨retryable, attempts.imp (fun kept => ?_) fun ⟨zero, reached⟩ => ⟨?_, reached⟩⟩
      · simp only [RetryRecord.retried, kept]
      · simp only [RetryRecord.retried, zero]
    case loud => exact fun _ holds => free holds.2
    case delay => intro _; rw [made]; exact ⟨counted, delay⟩

end Schedulers

section Runs

variable {w : World} {call : Call}

structure Sound (w : World) : Prop where
  named (id : String) (record : RetryRecord) : w.orchestrator.scheduler.records id = some record →
    record.invoiceId = id ∧ record.maxAttempts ≤ MAX_RETRIES_CAP ∧ 0 ≤ record.maxAttempts
  policies (planId : String) (policy : RetryPolicy) : w.orchestrator.scheduler.policies planId = some policy →
    policy.Valid ∧ policy.maxRetries ≤ MAX_RETRIES_CAP
  registered (id : String) : id ∈ w.allowed.map (·.1) → ∃ record, w.orchestrator.scheduler.records id = some record
  delays (retry : String × ℚ × ℚ) : retry ∈ w.allowed → MIN_RETRY_DELAY_HOURS ≤ retry.2.1 ∧ retry.2.1 ≤ retry.2.2
  once : w.reported.Nodup
  past (id : String) : id ∈ w.reported → ∃ gp, w.orchestrator.gracePeriods.get id = some gp ∧ gp.status ≠ .active

theorem default_valid : DEFAULT_RETRY_POLICY.Valid where
  maxRetries := by decide +kernel
  baseDelayHours := by decide +kernel
  backoffMultiplier := by decide +kernel
  maxDelayHours := by decide +kernel
  circuitBreakerThreshold := by decide +kernel
  circuitBreakerCooldownHours := by decide +kernel
  jitterHours := by decide +kernel

theorem Sound.policy (sound : Sound w) (planId : String) : (w.orchestrator.scheduler.getPlanPolicy planId).Valid ∧
      (w.orchestrator.scheduler.getPlanPolicy planId).maxRetries ≤ MAX_RETRIES_CAP := by
  unfold IntelligentRetryScheduler.getPlanPolicy
  cases held : w.orchestrator.scheduler.policies planId with
  | none => exact ⟨default_valid, by decide +kernel⟩
  | some policy => exact sound.policies planId policy held

theorem Sound.recordOf (sound : Sound w) (env : Env) (input : ProcessFailedInput) :
    (recordOf w env input).maxAttempts ≤ MAX_RETRIES_CAP ∧ 0 ≤ (recordOf w env input).maxAttempts := by
  unfold Retry.recordOf
  cases held : w.orchestrator.scheduler.records input.invoiceId with
  | none => exact ⟨(sound.policy input.planId).2, (sound.policy input.planId).1.maxRetries⟩
  | some record => exact (sound.named _ record held).2

theorem sound_new (configs : Store String GracePeriodConfig) (config : GracePeriodConfig) : Sound (.new configs config) where
  named _ _ stored := nomatch stored
  policies _ _ stored := nomatch stored
  registered _ listed := absurd listed not_mem_nil
  delays _ listed := absurd listed not_mem_nil
  once := nodup_nil
  past _ listed := absurd listed not_mem_nil

theorem recordSuccess_records {scheduler : IntelligentRetryScheduler} {env : Env} {invoiceId id : String}
    {later : RetryRecord} (named : ∀ id record, scheduler.records id = some record → record.invoiceId = id) :
    (scheduler.recordSuccess env invoiceId).records id = some later → ∃ record, scheduler.records id = some record ∧
      later.invoiceId = record.invoiceId ∧ later.attempts = record.attempts ∧ later.maxAttempts = record.maxAttempts := by
  intro held
  unfold IntelligentRetryScheduler.recordSuccess at held
  cases known : scheduler.records invoiceId with
  | none =>
    simp only [known] at held
    exact ⟨later, held, rfl, rfl, rfl⟩
  | some record =>
    simp only [known, IntelligentRetryScheduler.saveRecord, put_eq_some] at held
    obtain ⟨here, rfl⟩ | ⟨_, held⟩ := held
    · have own : id = invoiceId := here.trans (named _ _ known)
      exact ⟨record, own ▸ known, rfl, rfl, rfl⟩
    · exact ⟨later, held, rfl, rfl, rfl⟩

theorem recordSuccess_keeps {scheduler : IntelligentRetryScheduler} {env : Env} {invoiceId id : String}
    {record : RetryRecord} (named : ∀ id record, scheduler.records id = some record → record.invoiceId = id)
    (held : scheduler.records id = some record) :
    ∃ later, (scheduler.recordSuccess env invoiceId).records id = some later ∧ later.maxAttempts = record.maxAttempts := by
  unfold IntelligentRetryScheduler.recordSuccess
  cases known : scheduler.records invoiceId with
  | none => exact ⟨record, held, rfl⟩
  | some own =>
    simp only [IntelligentRetryScheduler.saveRecord, put_apply, named _ _ known]
    split
    · rename_i here
      rw [here, known] at held
      cases held
      exact ⟨_, rfl, rfl⟩
    · exact ⟨record, held, rfl⟩

theorem recordSuccess_policies (scheduler : IntelligentRetryScheduler) (env : Env) (invoiceId : String) :
    (scheduler.recordSuccess env invoiceId).policies = scheduler.policies := by
  unfold IntelligentRetryScheduler.recordSuccess
  split <;> rfl

theorem processSuccess_scheduler (orchestrator : DunningOrchestrator) (env : Env) (invoiceId : String) :
    (orchestrator.processSuccess env invoiceId).scheduler = orchestrator.scheduler.recordSuccess env invoiceId := by
  unfold DunningOrchestrator.processSuccess
  split <;> rfl

theorem processSuccess_get {orchestrator : DunningOrchestrator} {env : Env} {invoiceId id : String} {gp : GracePeriod} :
    (orchestrator.processSuccess env invoiceId).gracePeriods.get id = some gp ↔
      ∃ old, orchestrator.gracePeriods.get id = some old ∧
        gp = if id = invoiceId then { old with status := .recovered } else old := by
  unfold DunningOrchestrator.processSuccess
  cases own : orchestrator.gracePeriods.get invoiceId with
  | none => grind
  | some old =>
    simp only [InsertionMap.get_set_eq_some]
    grind

theorem mem_allowedRetry {input : ProcessFailedInput} {decision : RetryDecision} {retry : String × ℚ × ℚ} :
    retry ∈ allowedRetry w input decision ↔ decision.shouldRetry = true ∧ retry = (input.invoiceId, decision.delayHours,
      (w.orchestrator.scheduler.getPlanPolicy input.planId).maxDelayHours) := by
  unfold allowedRetry
  split <;> simp_all

theorem sound_processFailed (sound : Sound w) (env : Env) (delivered : Bool) (input : ProcessFailedInput) :
    Sound (perform w (.processFailed env delivered input)) := by
  obtain ⟨later, decided⟩ := decided w env input fun id record held => (sound.named id record held).1
  rw [perform_processFailed]
  constructor
  case named =>
    intro id record held
    rw [upsert_scheduler] at held
    by_cases here : id = input.invoiceId
    · rw [here, decided.stored] at held
      cases held
      rw [decided.maxAttempts]
      exact ⟨here.symm ▸ decided.invoiceId, sound.recordOf env input⟩
    · rw [decided.others id here] at held
      exact sound.named id record held
  case policies =>
    rw [upsert_scheduler, decided.policies]
    exact sound.policies
  case registered =>
    intro id mem
    rw [upsert_scheduler]
    by_cases here : id = input.invoiceId
    · exact ⟨later, here ▸ decided.stored⟩
    · rw [decided.others id here]
      rw [map_append, mem_append] at mem
      obtain old | new := mem
      · exact sound.registered id old
      · obtain ⟨retry, added, rfl⟩ := mem_map.mp new
        exact absurd (congrArg Prod.fst (mem_allowedRetry.mp added).2) here
  case delays =>
    intro retry mem
    obtain old | added := mem_append.mp mem
    · exact sound.delays retry old
    · obtain ⟨retries, rfl⟩ := mem_allowedRetry.mp added
      obtain ⟨record, delay⟩ := decided.delay retries
      rw [delay]
      exact retryDelay_within (sound.policy input.planId).1
  case once => exact sound.once
  case past =>
    intro id mem
    obtain ⟨gp, known, closed⟩ := sound.past id mem
    exact ⟨gp, upsert_keeps known, closed⟩

theorem Sound.perform (sound : Sound w) (accepted : Accepted w call) : Sound (perform w call) := by
  have named := fun id record held => (sound.named id record held).1
  cases call with
  | setPlanPolicy planId policy =>
    refine ⟨sound.named, fun id found held => ?_, sound.registered, sound.delays, sound.once, sound.past⟩
    simp only [Retry.perform, DunningOrchestrator.setPlanPolicy, IntelligentRetryScheduler.setPlanPolicy, put_eq_some] at held
    obtain ⟨_, rfl⟩ | ⟨_, held⟩ := held
    · exact ⟨accepted, min_le_right _ _⟩
    · exact sound.policies id found held
  | setGracePeriodConfig planId config =>
    exact ⟨sound.named, sound.policies, sound.registered, sound.delays, sound.once, sound.past⟩
  | processFailed env delivered input => exact sound_processFailed sound env delivered input
  | processSuccess env invoiceId =>
    constructor
    case named =>
      intro id later held
      rw [Retry.perform, processSuccess_scheduler] at held
      obtain ⟨record, known, same, _, ceiling⟩ := recordSuccess_records named held
      rw [same, ceiling]
      exact sound.named id record known
    case policies =>
      rw [Retry.perform, processSuccess_scheduler, recordSuccess_policies]
      exact sound.policies
    case registered =>
      intro id mem
      obtain ⟨record, known⟩ := sound.registered id mem
      obtain ⟨later, held, _⟩ := recordSuccess_keeps named known
      exact ⟨later, by rw [Retry.perform, processSuccess_scheduler]; exact held⟩
    case delays => exact sound.delays
    case once => exact sound.once
    case past =>
      intro id mem
      obtain ⟨gp, known, closed⟩ := sound.past id mem
      refine ⟨_, processSuccess_get.mpr ⟨gp, known, rfl⟩, ?_⟩
      split
      · rintro ⟨⟩
      · exact closed
  | sweepExpiredGracePeriods now =>
    refine ⟨sound.named, sound.policies, sound.registered, sound.delays, ?_, fun id mem => ?_⟩
    · refine nodup_append.mpr ⟨sound.once, nodup_sweep _, ?_⟩
      rintro a old b new rfl
      obtain ⟨gp, known, closed⟩ := sound.past a old
      obtain ⟨due, held, open_still⟩ := mem_sweep.mp new
      obtain rfl := Option.some.inj (known.symm.trans held)
      simp only [GracePeriod.due, decide_eq_true_eq] at open_still
      exact closed open_still.1
    · obtain old | new := mem_append.mp mem
      · obtain ⟨gp, known, closed⟩ := sound.past id old
        refine ⟨_, sweep_get.mpr ⟨gp, known, rfl⟩, ?_⟩
        split
        · rintro ⟨⟩
        · exact closed
      · obtain ⟨gp, known, due⟩ := mem_sweep.mp new
        exact ⟨_, sweep_get.mpr ⟨gp, known, rfl⟩, by rw [if_pos due]; rintro ⟨⟩⟩

structure Counted (w : World) : Prop where
  attempts (id : String) (record : RetryRecord) : w.orchestrator.scheduler.records id = some record →
    record.attempts = retriesOf w id ∧ (record.attempts : ℚ) ≤ record.maxAttempts
  closed (id : String) (gp : GracePeriod) : id ∈ w.recovered → w.orchestrator.gracePeriods.get id = some gp →
    gp.status ≠ .active

theorem retriesOf_eq_zero (sound : Sound w) {id : String} (unknown : w.orchestrator.scheduler.records id = none) :
    retriesOf w id = 0 := by
  unfold retriesOf
  rw [countP_eq_zero]
  intro retry mem same
  obtain ⟨record, known⟩ := sound.registered id (mem_map.mpr ⟨retry, mem, by simpa using same⟩)
  simp [unknown] at known

theorem Counted.recordOf (counted : Counted w) (sound : Sound w) (env : Env) (input : ProcessFailedInput) :
    (recordOf w env input).attempts = retriesOf w input.invoiceId ∧
      ((recordOf w env input).attempts : ℚ) ≤ (recordOf w env input).maxAttempts := by
  have ceiling := (sound.recordOf env input).2
  unfold Retry.recordOf at ceiling ⊢
  cases known : w.orchestrator.scheduler.records input.invoiceId with
  | some record => exact counted.attempts _ record known
  | none =>
    rw [known] at ceiling
    refine ⟨(retriesOf_eq_zero sound known).symm, ?_⟩
    simpa [IntelligentRetryScheduler.newRecord] using ceiling

theorem retriesOf_processFailed (env : Env) (delivered : Bool) (input : ProcessFailedInput) (id : String) :
    retriesOf (perform w (.processFailed env delivered input)) id = retriesOf w id +
      if id = input.invoiceId ∧ (decisionOf w env input).2.shouldRetry = true then 1 else 0 := by
  rw [perform_processFailed]
  simp only [retriesOf, allowedRetry, countP_append]
  congr 1
  cases (decisionOf w env input).2.shouldRetry <;>
    by_cases here : id = input.invoiceId <;> simp [here, eq_comm]

theorem counted_processFailed (counted : Counted w) (sound : Sound w) (env : Env) (delivered : Bool)
    (input : ProcessFailedInput) (careful : Careful w (.processFailed env delivered input)) :
    Counted (perform w (.processFailed env delivered input)) := by
  obtain ⟨later, decided⟩ := decided w env input fun id record held => (sound.named id record held).1
  obtain ⟨attempts, within⟩ := counted.recordOf sound env input
  constructor
  case attempts =>
    intro id record held
    rw [retriesOf_processFailed]
    rw [perform_processFailed] at held
    rw [upsert_scheduler] at held
    by_cases here : id = input.invoiceId
    · rw [here, decided.stored] at held
      cases held
      rw [decided.maxAttempts]
      cases retries : (decisionOf w env input).2.shouldRetry with
      | false =>
        rw [decided.refused retries, attempts, here]
        exact ⟨by simp, attempts ▸ within⟩
      | true =>
        obtain ⟨retryable, grown⟩ := decided.allowed retries
        obtain ⟨kept, _⟩ := careful (decided.loud (.inl retries))
        obtain ⟨fresh, room⟩ := kept retryable
        -- a breaker that is reset had nothing on it
        have one_more : later.attempts = (recordOf w env input).attempts + 1 := by
          obtain grown | ⟨one, reached⟩ := grown
          · exact grown
          · rw [one, fresh reached]
        rw [one_more, here]
        refine ⟨by simp [attempts], ?_⟩
        push_cast
        exact room
    · rw [decided.others id here] at held
      simpa [here] using counted.attempts id record held
  case closed =>
    intro id gp recovered known
    rw [perform_processFailed] at known
    obtain old | ⟨rfl, none_known, loud⟩ := upsert_get known
    · exact counted.closed id gp recovered old
    · exact absurd none_known ((careful (decided.loud loud)).2 recovered)

theorem Counted.perform (counted : Counted w) (sound : Sound w) (careful : Careful w call) : Counted (perform w call) := by
  cases call with
  | setPlanPolicy | setGracePeriodConfig => exact ⟨counted.attempts, counted.closed⟩
  | processFailed env delivered input => exact counted_processFailed counted sound env delivered input careful
  | processSuccess env invoiceId =>
    constructor
    case attempts =>
      intro id later held
      rw [Retry.perform, processSuccess_scheduler] at held
      obtain ⟨record, known, _, same, ceiling⟩ :=
        recordSuccess_records (fun id record held => (sound.named id record held).1) held
      rw [same, ceiling]
      exact counted.attempts id record known
    case closed =>
      intro id gp recovered known
      obtain ⟨old, before, rfl⟩ := processSuccess_get.mp known
      split
      · exact nofun
      · rename_i apart
        obtain earlier | here := mem_append.mp recovered
        · exact counted.closed id old earlier before
        · exact absurd (mem_singleton.mp here) apart
  | sweepExpiredGracePeriods now =>
    refine ⟨counted.attempts, fun id gp recovered known => ?_⟩
    obtain ⟨old, before, rfl⟩ := sweep_get.mp known
    split
    · exact nofun
    · exact counted.closed id old recovered before

theorem Counted.bounded (counted : Counted w) : Bounded w := by
  intro id record held
  obtain ⟨same, within⟩ := counted.attempts id record held
  exact same ▸ within

theorem Counted.unrecovered (counted : Counted w) : Unrecovered w call := by
  intro now _ id reported recovered
  obtain ⟨gp, known, due⟩ := mem_sweep.mp reported
  simp only [GracePeriod.due, decide_eq_true_eq] at due
  exact counted.closed id gp recovered known due.1

theorem Sound.fixed (sound : Sound w) : Fixed w call := by
  have named := fun id record held => (sound.named id record held).1
  intro id record held
  cases call with
  | setPlanPolicy | setGracePeriodConfig | sweepExpiredGracePeriods => exact ⟨record, held, rfl⟩
  | processFailed env delivered input =>
    obtain ⟨later, decided⟩ := decided w env input named
    rw [perform_processFailed, upsert_scheduler]
    by_cases here : id = input.invoiceId
    · refine ⟨later, here ▸ decided.stored, ?_⟩
      rw [decided.maxAttempts, Retry.recordOf, ← here, held]
      rfl
    · exact ⟨record, (decided.others id here).trans held, rfl⟩
  | processSuccess env invoiceId =>
    rw [Retry.perform, processSuccess_scheduler]
    exact recordSuccess_keeps named held

theorem Sound.disciplined (sound : Sound w) : Disciplined w where
  capped id record stored := (sound.named id record stored).2.1
  registered := sound.registered
  delays := sound.delays
  once := sound.once

variable {configs : Store String GracePeriodConfig} {config : GracePeriodConfig} {calls : List Call}

theorem sound_of_accepted (accepted : Throughout Retry.perform (.new configs config) Accepted calls) :
    Sound (calls.foldl Retry.perform (.new configs config)) :=
  accepted.keeps Sound (sound_new configs config) fun _ _ sound accepted => sound.perform accepted

theorem counted_new (configs : Store String GracePeriodConfig) (config : GracePeriodConfig) : Counted (.new configs config) where
  attempts _ _ known := by cases known
  closed _ _ recovered := absurd recovered not_mem_nil

theorem counted_of_careful (accepted : Throughout Retry.perform (.new configs config) Accepted calls)
    (careful : Throughout Retry.perform (.new configs config) Careful calls) :
    Counted (calls.foldl Retry.perform (.new configs config)) := by
  have both := (accepted.and careful).keeps (fun w => Sound w ∧ Counted w) ⟨sound_new configs config, counted_new configs config⟩
    fun _ _ ⟨sound, counted⟩ ⟨accepted, careful⟩ => ⟨sound.perform accepted, counted.perform sound careful⟩
  exact both.2

end Runs

/-- In every run with valid policies the ceilings, the delays and the reports are as they should be; where all failed
    payments keep the count, the retries stay within the ceilings and nothing is reported that was recovered. -/
theorem retries_bounded (configs : Store String GracePeriodConfig) (config : GracePeriodConfig) (calls : List Call)
    (accepted : Throughout perform (.new configs config) Accepted calls) :
    Disciplined (calls.foldl perform (.new configs config)) ∧ Throughout perform (.new configs config) Fixed calls ∧
      (Throughout perform (.new configs config) Careful calls →
        Bounded (calls.foldl perform (.new configs config)) ∧ Throughout perform (.new configs config) Unrecovered calls) := by
  refine ⟨(sound_of_accepted accepted).disciplined, fun earlier call later split => ?_, fun careful => ⟨?_, ?_⟩⟩
  · exact (sound_of_accepted (accepted.before split)).fixed
  · exact (counted_of_careful accepted careful).bounded
  · intro earlier call later split
    exact (counted_of_careful (accepted.before split) (careful.before split)).unrecovered

def failure (now : ℤ) : Call := .processFailed ⟨now, 1 / 2⟩ true ⟨"inv_1", "sub_1", "plan_1", 20, "USD", .network_error⟩

def exampleCalls : List Call :=
  [.setPlanPolicy "plan_1" { maxRetries := some 12 }, failure 0, .processSuccess ⟨3600000, 0⟩ "inv_1", failure 7200000,
    .sweepExpiredGracePeriods 400000000]

theorem retries_bounded_exampleCalls : Bounded (exampleCalls.foldl perform (.new (fun _ => none) DEFAULT_GRACE_PERIOD_CONFIG)) ∧
    Throughout perform (.new (fun _ => none) DEFAULT_GRACE_PERIOD_CONFIG) Unrecovered exampleCalls := by
  have accepted : Throughout perform (.new (fun _ => none) DEFAULT_GRACE_PERIOD_CONFIG) Accepted exampleCalls := by
    refine .cons ?_ (.cons trivial (.cons trivial (.cons trivial (.cons trivial .nil))))
    constructor <;> decide +kernel
  obtain ⟨_, _, rest⟩ := retries_bounded _ _ exampleCalls accepted
  refine rest (.cons trivial (.cons ?_ (.cons trivial (.cons ?_ (.cons trivial .nil)))))
  · exact fun _ => ⟨fun _ => ⟨fun _ => rfl, by decide +kernel⟩, fun recovered => absurd recovered not_mem_nil⟩
  · exact fun _ => ⟨fun _ => ⟨fun reached => absurd reached (by decide +kernel), by decide +kernel⟩, fun _ => by decide +kernel⟩

def resettingCalls : List Call :=
  .setPlanPolicy "plan_1" { circuitBreakerThreshold := some 1, circuitBreakerCooldownHours := some 0 } ::
    List.replicate 5 (failure 0)

theorem retries_after_cooldowns : Throughout perform (.new (fun _ => none) DEFAULT_GRACE_PERIOD_CONFIG) Accepted resettingCalls ∧
    ¬ Bounded (resettingCalls.foldl perform (.new (fun _ => none) DEFAULT_GRACE_PERIOD_CONFIG)) := by
  refine ⟨.cons ?_ (.cons trivial (.cons trivial (.cons trivial (.cons trivial (.cons trivial .nil))))), fun bounded => ?_⟩
  · constructor <;> decide +kernel
  · have exceeded : ((resettingCalls.foldl perform (.new (fun _ => none) DEFAULT_GRACE_PERIOD_CONFIG)).orchestrator.scheduler.records
        "inv_1").any (fun record => decide (record.maxAttempts < (retriesOf
          (resettingCalls.foldl perform (.new (fun _ => none) DEFAULT_GRACE_PERIOD_CONFIG)) "inv_1" : ℚ))) = true := by
      decide +kernel
    obtain ⟨record, stored, exceeds⟩ := (Option.any_eq_true _ _).mp exceeded
    exact absurd (bounded "inv_1" record stored) (not_le.mpr (of_decide_eq_true exceeds))

end SubTrackr.Retry
